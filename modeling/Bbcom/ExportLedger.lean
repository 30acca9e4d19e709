-- What each operation of the export sessions (`session.rs`, `streaming_sessions.rs`) does to the
-- books: which tokens it takes and which it leaves.
import Bbcom.ExportBooks

open bbcom.histories

namespace bbcom.export_session

open ExportSession Tally ExportSessionManager Happening List Option

variable {s : ExportSessionManager} {tokens : List Token} {n : Nat} {session : ExportSession}

/-! ## The numbers of one session -/

namespace Fair

variable {c : Tally} {strong temps : Nat} {terminal locked : Bool}

theorem cloneArc (h : Fair c strong terminal locked temps) (htable : 0 < c.table) :
    Fair { c with arcs := c.arcs + 1 } (strong + 1) terminal locked temps :=
  { h with
    strong := by
      have hstrong := h.strong
      simp only
      omega
    births hbirths := by
      have hnone := (h.births hbirths).2.2.1
      omega }

theorem dropArc (h : Fair { c with arcs := c.arcs + 1 } strong terminal locked temps) :
    Fair c (strong - 1) terminal locked temps :=
  { h with
    strong := by
      have hstrong := h.strong
      simp only at hstrong
      omega
    births hbirths := by
      have hnone := (h.births hbirths).2.1
      simp only at hnone
      omega }

/-- The place in the table is given up for a clone, which `remove_current` drops. -/
theorem leaveTable (h : Fair { c with entries := c.entries + 1 } strong terminal locked temps)
    (htable : 0 < c.table) :
    Fair { c with table := c.table - 1, arcs := c.arcs + 1 } strong terminal locked temps := by
  have hterminal : terminal = true := by
    by_contra hno
    have hnone := (h.open_ (Bool.eq_false_iff.2 hno)).1
    simp only at hnone
    omega
  subst hterminal
  have hstrong := h.strong
  have hentries := h.entries rfl
  have htemp := h.temp
  simp only [openCount] at hstrong hentries htemp
  exact
    { h with
      strong := by
        simp only
        omega
      births hbirths := by
        have hno := (h.births hbirths).2.2.2
        cases hno
      begun := nofun
      entries _ := by
        simp only
        omega
      open_ := nofun
      temp := htemp }

theorem forgetEntry (h : Fair { c with entries := c.entries + 1 } strong terminal locked temps)
    (htable : c.table = 0) : Fair c strong terminal locked temps :=
  { h with
    entries _ := by omega
    open_ hterminal := by
      have hopen := h.open_ hterminal
      simp only at hopen
      omega }

theorem insert (h : Fair { c with births := c.births + 1, duties := c.duties + 1 } strong terminal
      locked temps) :
    Fair { c with table := c.table + 1, arcs := c.arcs + 1 } (strong + 1) terminal locked
      temps := by
  have hbirths := h.births (by simp)
  have hstrong := h.strong
  have htemp := h.temp
  have hunlisted := h.unlisted
  obtain ⟨hone, harcs, htable, rfl⟩ := hbirths
  simp only [openCount] at hone harcs htable hstrong htemp hunlisted
  exact
    { h with
      strong := by
        simp only
        omega
      births hpos := by
        simp only at hpos
        omega
      unlisted hpos := absurd (hunlisted hpos).2.1 (by omega)
      begun _ := by
        simp only
        omega
      entries := nofun
      temp := by
        simp only [openCount, Bool.false_eq_true, if_false] at htemp ⊢
        omega }

theorem listTemp (h : Fair { c with births := c.births + 1, unlisted := c.unlisted + 1 } strong
      terminal locked temps) :
    Fair { c with births := c.births + 1, duties := c.duties + 1, listed := c.listed + 1 } strong
      terminal locked (temps + 1) := by
  obtain ⟨-, -, htable, rfl⟩ := h.births (by simp)
  have hunlisted := h.unlisted (by simp)
  have htemp := h.temp
  have hlisted := h.listed
  simp only [openCount, Bool.false_eq_true, if_false] at htable hunlisted htemp hlisted
  exact
    { h with
      unlisted hpos := by
        simp only at hpos
        omega
      temp := by
        simp only [openCount, Bool.false_eq_true, if_false]
        omega
      listed := by
        simp only
        omega
      listedOnce := by
        simp only
        omega }

theorem unlistTemp (h : Fair { c with duties := c.duties + 1 } strong terminal locked temps) :
    Fair { c with released := c.released + 1 } strong terminal locked (temps - 1) := by
  have htemp := h.temp
  have hlisted := h.listed
  have hunlisted := h.unlisted
  simp only at htemp hlisted hunlisted
  exact
    { h with
      unlisted hpos := absurd (hunlisted hpos).2.1 (by omega)
      temp := by
        simp only
        omega
      listed := by
        simp only
        omega }

theorem lock (h : Fair c strong false false temps) :
    Fair { c with locks := c.locks + 1 } strong false true temps :=
  { h with
    locks := by
      have hlocks := h.locks
      simp only [Bool.toNat_false] at hlocks
      simp only [Bool.toNat_true]
      omega
    ended := nofun }

theorem unlock (h : Fair { c with locks := c.locks + 1 } strong terminal locked temps) :
    Fair c strong terminal false temps := by
  have hlocks := h.locks
  have hbound := locked.toNat_le
  simp only at hlocks
  exact
    { h with
      locks := by
        simp only [Bool.toNat_false]
        omega
      ended _ := by omega }

theorem unshut (h : Fair { c with shuts := c.shuts + 1 } strong terminal locked temps) :
    Fair c strong terminal false temps := by
  have hlocks := h.locks
  have hbound := locked.toNat_le
  simp only at hlocks
  exact
    { h with
      locks := by
        simp only [Bool.toNat_false]
        omega }

/-- A session that is not terminal is sealed: for a finish that writes on (`pens`), or without one
that could. -/
theorem close (h : Fair c strong false false temps) (htable : 0 < c.table) (htemps : temps ≤ 1)
    (pens sealed shuts : Nat) (shut : Bool) (hone : pens = 0 ∨ sealed = 0)
    (hshut : shuts = shut.toNat) :
    Fair
      { c with
        entries := c.entries + 1
        duties := c.duties + 1
        pens := c.pens + pens
        sealed := c.sealed + sealed
        shuts := c.shuts + shuts } strong true shut temps := by
  have htemp := h.temp
  have hlocks := h.locks
  obtain ⟨-, hpens, hsealed⟩ := h.open_ rfl
  simp only [openCount, Bool.false_eq_true, if_false, Bool.toNat_false] at htemp hlocks
  exact
    { h with
      births hbirths := by
        have hnone := (h.births hbirths).2.2.1
        omega
      unlisted hpos := by
        have hlisted := h.listed
        have hnone := h.unlisted hpos
        omega
      begun := nofun
      entries _ := by
        simp only
        omega
      open_ := nofun
      sealed hpos := by
        simp only at hpos ⊢
        omega
      locks := by
        simp only
        omega
      ended _ := by
        simp only
        omega
      temp := by
        simp only [openCount, if_true]
        omega }

theorem dropPen (h : Fair { c with pens := c.pens + 1 } strong terminal locked temps) :
    Fair c strong terminal locked temps :=
  { h with
    open_ hterminal := by
      have hopen := h.open_ hterminal
      simp only at hopen
      omega
    sealed hsealed := by
      have hnone := h.sealed hsealed
      simp only at hnone
      omega }

end Fair

/-! ## Sessions that change -/

@[simp] theorem activeTemps_record (happening : Happening) :
    (s.record happening).activeTemps = s.activeTemps := rfl

@[simp] theorem activeTemps_modify (n : Nat) (f : ExportSession → ExportSession) :
    (s.modify n f).activeTemps = s.activeTemps := rfl

variable {s' : ExportSessionManager}

/-- What a call exchanges at a session that keeps its slot. -/
theorem Books.exchange (front back : List Token) (news : List Happening)
    (f : ExportSession → ExportSession) (b : Books s (front ++ tokens))
    (hn : s.sessions[n]? = some session) (hsessions : s'.sessions = s.sessions.modify n f)
    (hface : SameFace session (f session)) (hlive : (f session).live = session.live)
    (hhouse : SameHouse s s') (hdrawn : s'.drawn = s.drawn) (hothers : SameOthers s s' n session)
    (hlog : s'.log = news ++ s.log) (hnews : ∀ happening ∈ news, happening.about = some n)
    (hfront : AllAbout n front) (hback : AllAbout n back)
    (hnames : ∀ id, .name n id ∈ back → id = session.id)
    (hfair : Fair (tally s' (back ++ tokens) n) (f session).strong (f session).terminal
      (f session).locked (s'.activeTemps.count session.temp)) (hsilent : Lawful Silent s'.log) :
    Books s' (back ++ tokens) :=
  ⟨b.rolls.exchange front back news f hn hsessions hface hdrawn hothers hlog hnews hfront hback
      hnames hfair,
    b.house.exchange front back news f hn hsessions hface hlive hhouse hlog hnews hfront hback,
    hsilent⟩

/-- One session changes, and neither its place in the table nor the entry of its temp file. -/
theorem Books.trade (front back : List Token) (f : ExportSession → ExportSession)
    (b : Books s (front ++ tokens)) (hn : s.sessions[n]? = some session)
    (hface : SameFace session (f session)) (hlive : (f session).live = session.live)
    (hfront : AllAbout n front) (hback : AllAbout n back)
    (hnames : ∀ id, .name n id ∈ back → id = session.id)
    (hfair : Fair (tally s (back ++ tokens) n) (f session).strong (f session).terminal
      (f session).locked (s.activeTemps.count session.temp)) :
    Books (s.modify n f) (back ++ tokens) := by
  have hothers : SameOthers s (s.modify n f) n session :=
    b.rolls.sameOthers (by rfl) (by rfl) n session
  refine b.exchange front back [] f hn rfl hface hlive ⟨rfl, rfl, rfl⟩ rfl hothers rfl ?_ hfront
    hback hnames hfair b.silent
  simp

/-! ## Clones -/

theorem Books.cloneArc (b : Books s tokens) (hn : s.sessions[n]? = some session)
    (htable : 0 < (s.table.map Prod.snd).count n) :
    Books (s.cloneArc n) (.arc n :: tokens) := by
  have hfair := b.rolls.fair n session hn
  have hstrong := hfair.strong
  have hlive : live { session with strong := session.strong + 1 } = session.live := by
    unfold live
    rw [decide_eq_decide]
    simp only [tally] at hstrong ⊢
    omega
  refine b.trade [] [.arc n] _ hn ⟨rfl, rfl, rfl⟩ hlive (.nil n) (.cons rfl (.nil n)) (by simp) ?_
  simpa only [cons_append, nil_append, tally_cons, add, if_true] using
    hfair.cloneArc htable

theorem tally_about_none {token : Token} (h : token.about = none) (n : Nat) :
    tally s (token :: tokens) n = tally s tokens n := by
  rw [tally_cons]
  cases token with
  | slot | target | id | fresh => rfl
  | _ => cases h

/-- The last clone of a session leaves its slot and its target. -/
theorem Books.dropLast (b : Books s (.arc n :: tokens)) (hn : s.sessions[n]? = some session)
    (hlast : session.strong = 1) :
    Books (s.modify n fun session => { session with strong := session.strong - 1 })
      (.slot :: .target session.identity :: tokens) := by
  have hfair := (b.rolls.fair n session hn)
  rw [tally_cons, add, if_pos rfl] at hfair
  have hothers : SameOthers s
      (s.modify n fun session => { session with strong := session.strong - 1 }) n session :=
    b.rolls.sameOthers (by rfl) (by rfl) n session
  have hlive : session.live = true := by
    simp [live, hlast]
  have hdead : live { session with strong := session.strong - 1 } = false := by
    simp [live, hlast]
  constructor
  · refine b.rolls.update hn rfl ⟨rfl, rfl, rfl⟩ rfl hothers ?_ ?_ ?_ ?_
    · intro id
      simp
    · intro m id hm
      exact b.rolls.names m id (by simpa using hm)
    · intro m hm
      rw [tally_about_none rfl, tally_about_none rfl, tally_cons, add_other rfl hm]
      rfl
    · rw [tally_about_none rfl, tally_about_none rfl]
      exact hfair.dropArc
  · exact
      { b.house with
        slots := by
          have hslots := b.house.slots
          have hcount := countP_modify
            (f := fun session : ExportSession => { session with strong := session.strong - 1 })
            (·.live) hn
          simp only [hlive, hdead, Bool.toNat_true, Bool.toNat_false] at hcount
          simp only [ExportSessionManager.modify, count_cons, reduceCtorEq, beq_iff_eq,
            if_false, if_true] at hslots ⊢
          omega
        targets identity := by
          have htargets := b.house.targets identity
          have hcount := countP_modify
            (f := fun session : ExportSession => { session with strong := session.strong - 1 })
            (fun session => session.live && session.identity == identity) hn
          simp only [hlive, hdead, Bool.true_and, Bool.false_and, Bool.toNat_false] at hcount
          simp only [ExportSessionManager.modify, count_cons, reduceCtorEq, beq_iff_eq,
            if_false, Token.target.injEq] at htargets ⊢
          by_cases hsame : session.identity = identity
          · simp only [hsame, beq_self_eq_true, Bool.toNat_true, if_true] at hcount ⊢
            omega
          · have hno : (session.identity == identity) = false := beq_eq_false_iff_ne.2 hsame
            simp only [hno, hsame, Bool.toNat_false, if_false] at hcount ⊢
            omega
        ids id := by
          have hids := b.house.ids id
          simpa [ExportSessionManager.modify, count_cons] using hids }
  · exact b.silent

/-! ## Slots, targets and ids -/

/-- Nothing is exchanged at any session. -/
theorem Rolls.keep {tokens' : List Token} (r : Rolls s tokens)
    (hsessions : s'.sessions = s.sessions) (htable : s'.table = s.table)
    (htemps : s'.activeTemps = s.activeTemps) (hdrawn : ∀ id ∈ s.drawn, id ∈ s'.drawn)
    (htally : ∀ n, tally s' tokens' n = tally s tokens n)
    (hnames : ∀ n id, .name n id ∈ tokens' → .name n id ∈ tokens)
    (hfresh : ∀ id, tokens'.count (.fresh id) = tokens.count (.fresh id)) : Rolls s' tokens' where
  blank n hn := by
    rw [hsessions] at hn
    exact (htally n).trans (r.blank n hn)
  fair n session hn := by
    rw [hsessions] at hn
    rw [htally, htemps]
    exact r.fair n session hn
  keys := htable ▸ r.keys
  keyed := by
    rw [htable, hsessions]
    exact r.keyed
  names n id hn := by
    rw [hsessions]
    exact r.names n id (hnames n id hn)
  tempsNodup := htemps ▸ r.tempsNodup
  tempsKnown := by
    rw [htemps, hsessions]
    exact r.tempsKnown
  drawn session h := hdrawn _ (r.drawn session (hsessions ▸ h))
  distinct := hsessions ▸ r.distinct
  fresh id hid := by
    rw [← count_pos_iff, hfresh, count_pos_iff] at hid
    obtain ⟨hone, hin, hno⟩ := r.fresh id hid
    exact ⟨(hfresh id).trans hone, hdrawn id hin, hsessions ▸ hno⟩

theorem Books.takeSlot (b : Books s tokens) :
    Books ({ s with permitsTaken := s.permitsTaken + 1 }.record .slotTaken) (.slot :: tokens) where
  rolls := by
    refine b.rolls.keep rfl rfl rfl (fun _ h => h) ?_ ?_ ?_
    · intro n
      rw [tally_about_none rfl, tally_record]
      rfl
    · simp
    · simp
  house :=
    { b.house with
      slots := by
        have hslots := b.house.slots
        simp only [record, count_cons_self]
        omega
      slotLog := by
        have hlog := b.house.slotLog
        simp only [record, countP_cons, isSlotTaken,
          isSlotReleased, if_true, Bool.false_eq_true, if_false]
        omega
      targets identity := by
        simpa [record] using b.house.targets identity
      ids id := by
        simpa [record] using b.house.ids id }
  silent := ⟨trivial, b.silent⟩

theorem Books.releaseSlot (b : Books s (.slot :: tokens)) : Books s.releaseSlot tokens where
  rolls := by
    refine b.rolls.keep rfl rfl rfl (fun _ h => h) ?_ ?_ ?_
    · intro n
      rw [tally_about_none rfl, ExportSessionManager.releaseSlot, tally_record]
      rfl
    · simp
    · simp
  house :=
    { b.house with
      slots := by
        have hslots := b.house.slots
        simp only [count_cons_self] at hslots
        simp only [ExportSessionManager.releaseSlot, ExportSessionManager.record]
        omega
      slotLog := by
        have hlog := b.house.slotLog
        have hslots := b.house.slots
        simp only [count_cons_self] at hslots
        simp only [ExportSessionManager.releaseSlot, ExportSessionManager.record, countP_cons,
          isSlotTaken, isSlotReleased, if_true, Bool.false_eq_true, if_false]
        omega
      targets identity := by
        simpa [ExportSessionManager.releaseSlot, ExportSessionManager.record] using
          b.house.targets identity
      ids id := by
        simpa [ExportSessionManager.releaseSlot, ExportSessionManager.record] using b.house.ids id }
  silent := ⟨trivial, b.silent⟩

variable {identity id : String}

theorem Books.reserveTarget (b : Books s tokens) (hno : identity ∉ s.activeTargets) :
    Books ({ s with activeTargets := identity :: s.activeTargets }.record
      (.targetReserved identity)) (.target identity :: tokens) where
  rolls := by
    refine b.rolls.keep rfl rfl rfl (fun _ h => h) ?_ ?_ ?_
    · intro n
      rw [tally_about_none rfl, tally_record]
      rfl
    · simp
    · simp
  house :=
    { b.house with
      slots := by simpa [record] using b.house.slots
      targetsNodup := nodup_cons.2 ⟨hno, b.house.targetsNodup⟩
      targets other := by
        have htargets := b.house.targets other
        simp only [record, count_cons, beq_iff_eq, Token.target.injEq]
        omega
      targetLog other := by
        have hlog := b.house.targetLog other
        simp only [record, countP_cons, count_cons, isReserved, isTargetReleased,
          Bool.false_eq_true, if_false, beq_iff_eq]
        omega
      ids id := by
        simpa [record] using b.house.ids id }
  silent := ⟨trivial, b.silent⟩

theorem Books.releaseTarget (b : Books s (.target identity :: tokens)) :
    Books (s.releaseTarget identity) tokens where
  rolls := by
    refine b.rolls.keep rfl rfl rfl (fun _ h => h) ?_ ?_ ?_
    · intro n
      rw [tally_about_none rfl, ExportSessionManager.releaseTarget, tally_record]
      rfl
    · simp
    · simp
  house :=
    { b.house with
      slots := by
        simpa [ExportSessionManager.releaseTarget, ExportSessionManager.record] using b.house.slots
      targetsNodup := b.house.targetsNodup.erase _
      targets other := by
        have htargets := b.house.targets other
        simp only [count_cons, beq_iff_eq, Token.target.injEq] at htargets
        simp only [ExportSessionManager.releaseTarget, ExportSessionManager.record,
          count_erase, beq_iff_eq]
        split at htargets <;> simp_all
      targetLog other := by
        have hlog := b.house.targetLog other
        have htargets := b.house.targets other
        simp only [count_cons, beq_iff_eq, Token.target.injEq] at htargets
        simp only [ExportSessionManager.releaseTarget, ExportSessionManager.record, countP_cons,
          count_erase, isReserved, isTargetReleased, Bool.false_eq_true, if_false, beq_iff_eq]
        omega
      ids id := by
        simpa [ExportSessionManager.releaseTarget, ExportSessionManager.record] using
          b.house.ids id }
  silent := ⟨trivial, b.silent⟩

theorem Books.draw (b : Books s tokens) (id : String) :
    Books { s with drawn := id :: s.drawn } tokens :=
  ⟨b.rolls.keep rfl rfl rfl (fun _ h => mem_cons_of_mem _ h) (fun _ => rfl)
    (fun _ _ h => h) (fun _ => rfl), { b.house with }, b.silent⟩

theorem Books.reserveId (b : Books s tokens) (hno : id ∉ s.drawn) :
    Books { s with drawn := id :: s.drawn, reservedIds := id :: s.reservedIds }
      (.id id :: .fresh id :: tokens) where
  rolls :=
    { b.rolls with
      blank n hn := by
        rw [tally_about_none rfl, tally_about_none rfl]
        exact b.rolls.blank n hn
      fair n session hn := by
        rw [tally_about_none rfl, tally_about_none rfl]
        exact b.rolls.fair n session hn
      names n other hn := by
        exact b.rolls.names n other (by simpa using hn)
      drawn session h := mem_cons_of_mem _ (b.rolls.drawn session h)
      fresh other hother := by
        by_cases hsame : other = id
        · subst hsame
          have hnone : Token.fresh other ∉ tokens := fun hin => hno (b.rolls.fresh other hin).2.1
          refine ⟨?_, mem_cons_self, fun session hsession hid => ?_⟩
          · simp [count_eq_zero.2 hnone]
          · exact hno (hid ▸ b.rolls.drawn session hsession)
        · have hin : Token.fresh other ∈ tokens := by simpa [hsame] using hother
          obtain ⟨hone, hdrawn, hrest⟩ := b.rolls.fresh other hin
          refine ⟨?_, mem_cons_of_mem _ hdrawn, hrest⟩
          simpa [count_cons, Ne.symm hsame] using hone }
  house :=
    { b.house with
      slots := by simpa using b.house.slots
      targets identity := by
        simpa using b.house.targets identity
      ids other := by
        have hids := b.house.ids other
        simp only [count_cons, beq_iff_eq, Token.id.injEq, reduceCtorEq, if_false]
        omega }
  silent := b.silent

theorem Books.releaseReserved (b : Books s (.id id :: tokens)) :
    Books (s.releaseReserved id) tokens where
  rolls := by
    refine b.rolls.keep rfl rfl rfl (fun _ h => h) ?_ ?_ ?_
    · intro n
      rw [tally_about_none rfl]
      rfl
    · simp
    · simp
  house :=
    { b.house with
      slots := by simpa [ExportSessionManager.releaseReserved] using b.house.slots
      targets identity := by
        simpa [ExportSessionManager.releaseReserved] using b.house.targets identity
      ids other := by
        have hids := b.house.ids other
        simp only [count_cons, beq_iff_eq, Token.id.injEq] at hids
        simp only [ExportSessionManager.releaseReserved, count_erase, beq_iff_eq]
        omega }
  silent := b.silent

/-- The id is not used. -/
theorem Books.forgetFresh (b : Books s (.fresh id :: tokens)) : Books s tokens where
  rolls :=
    { b.rolls with
      blank n hn := by
        have hblank := b.rolls.blank n hn
        rwa [tally_about_none rfl] at hblank
      fair n session hn := by
        have hfair := b.rolls.fair n session hn
        rwa [tally_about_none rfl] at hfair
      names n other hn := b.rolls.names n other (mem_cons_of_mem _ hn)
      fresh other hother := by
        obtain ⟨hone, hrest⟩ := b.rolls.fresh other (mem_cons_of_mem _ hother)
        refine ⟨?_, hrest⟩
        have hpos := count_pos_iff.2 hother
        rw [count_cons] at hone
        omega }
  house :=
    { b.house with
      slots := by simpa using b.house.slots
      targets identity := by
        simpa using b.house.targets identity
      ids other := by
        simpa using b.house.ids other }
  silent := b.silent

theorem Books.forgetName (b : Books s (.name n id :: tokens)) : Books s tokens where
  rolls := by
    refine b.rolls.keep rfl rfl rfl (fun _ h => h) ?_ ?_ ?_
    · intro m
      rw [tally_cons]
      rfl
    · intro m other hm
      exact mem_cons_of_mem _ hm
    · simp
  house :=
    { b.house with
      slots := by simpa using b.house.slots
      targets identity := by
        simpa using b.house.targets identity
      ids other := by
        simpa using b.house.ids other }
  silent := b.silent

theorem Books.takeName (b : Books s tokens) (hn : s.sessions[n]? = some session) :
    Books s (.name n session.id :: tokens) where
  rolls :=
    { b.rolls with
      blank m hm := by
        rw [tally_cons]
        exact b.rolls.blank m hm
      fair m other hm := by
        rw [tally_cons]
        exact b.rolls.fair m other hm
      names m other hm := by
        rcases mem_cons.1 hm with hthis | hin
        · cases hthis
          exact ⟨session, hn, rfl⟩
        · exact b.rolls.names m other hin
      fresh other hother := by
        have hin : Token.fresh other ∈ tokens := by simpa using hother
        simpa using b.rolls.fresh other hin }
  house :=
    { b.house with
      slots := by simpa using b.house.slots
      targets identity := by
        simpa using b.house.targets identity
      ids other := by
        simpa using b.house.ids other }
  silent := b.silent

/-! ## Locks and seals -/

/-- A happening that no number counts. -/
theorem Books.record (b : Books s tokens) (happening : Happening)
    (habout : happening.about = some n) (hnote : ∀ c m, note c m happening = c)
    (hsilent : Silent s.log happening) :
    Books (s.record happening) tokens where
  rolls := by
    refine b.rolls.keep rfl rfl rfl (fun _ h => h) ?_ (fun _ _ h => h) (fun _ => rfl)
    intro m
    rw [tally_record, hnote]
  house := by
    have hcount : ∀ p : Happening → Bool, (∀ happening, p happening = true →
        happening.about = none) → (s.record happening).log.countP p = s.log.countP p := by
      intro p hp
      refine countP_cons_of_neg fun hholds => ?_
      rw [hp happening hholds] at habout
      cases habout
    exact
      { b.house with
        slotLog := by
          rw [hcount _ fun _ => about_of_isSlotTaken, hcount _ fun _ => about_of_isSlotReleased]
          exact b.house.slotLog
        targetLog identity := by
          rw [hcount _ fun _ => about_of_isReserved, hcount _ fun _ => about_of_isTargetReleased]
          exact b.house.targetLog identity }
  silent := ⟨hsilent, b.silent⟩

theorem Books.lock (b : Books s tokens) (hn : s.sessions[n]? = some session)
    (hterminal : session.terminal = false) (hlocked : session.locked = false) :
    Books (s.modify n fun session => { session with locked := true }) (.lock n :: tokens) := by
  have hfair := b.rolls.fair n session hn
  rw [hterminal, hlocked] at hfair
  refine b.trade [] [.lock n] _ hn ⟨rfl, rfl, rfl⟩ rfl (.nil n) (.cons rfl (.nil n)) (by simp) ?_
  simp only [cons_append, nil_append, tally_cons, add, if_true, hterminal]
  exact hfair.lock

theorem Books.unshut (b : Books s (.shut n :: tokens)) (hn : s.sessions[n]? = some session) :
    Books (s.modify n fun session => { session with locked := false }) tokens := by
  have hfair := b.rolls.fair n session hn
  simp only [tally_cons, add, if_true] at hfair
  exact b.trade [.shut n] [] _ hn ⟨rfl, rfl, rfl⟩ rfl (.cons rfl (.nil n)) (.nil n) (by simp)
    hfair.unshut

/-- An append gives the lock back. -/
theorem Books.unlock (b : Books s (.lock n :: tokens)) (f : ExportSession → ExportSession)
    (hn : s.sessions[n]? = some session) (hface : SameFace session (f session))
    (hstrong : (f session).strong = session.strong)
    (hterminal : (f session).terminal = session.terminal)
    (hlocked : (f session).locked = false) : Books (s.modify n f) tokens := by
  have hfair := b.rolls.fair n session hn
  simp only [tally_cons, add, if_true] at hfair
  have hlive : (f session).live = session.live := by
    unfold live
    rw [hstrong]
  refine b.trade [.lock n] [] f hn hface hlive (.cons rfl (.nil n)) (.nil n) (by simp) ?_
  rw [hstrong, hterminal, hlocked]
  exact hfair.unlock

theorem Books.temps_le_one (b : Books s tokens) (temp : TempPath) :
    s.activeTemps.count temp ≤ 1 :=
  nodup_iff_count_le_one.1 b.rolls.tempsNodup temp

/-- A call that has a clone of a session which is not terminal finds it in the table. -/
theorem Books.mem_table (b : Books s (.arc n :: tokens)) (hn : s.sessions[n]? = some session)
    (hterminal : session.terminal = false) : 0 < (tally s tokens n).table := by
  have hfair := b.rolls.fair n session hn
  simp only [tally_cons, add, if_true] at hfair
  have hbegun := hfair.begun hterminal
  have hbirths := hfair.births
  simp only at hbegun hbirths
  omega

/-- `finish` takes the writer out of a session. -/
theorem Books.close (b : Books s (.arc n :: tokens)) (f : ExportSession → ExportSession)
    (hn : s.sessions[n]? = some session) (hterminal : session.terminal = false)
    (hlocked : session.locked = false) (hface : SameFace session (f session))
    (hstrong : (f session).strong = session.strong) (hended : (f session).terminal = true)
    (hfree : (f session).locked = false) :
    Books (s.modify n f) (.arc n :: .entry n :: .duty n :: .pen n :: tokens) := by
  have hfair := b.rolls.fair n session hn
  have htable := b.mem_table hn hterminal
  have htemps := b.temps_le_one session.temp
  rw [hterminal, hlocked] at hfair
  simp only [tally_cons, add, if_true] at hfair
  have hlive : (f session).live = session.live := by
    unfold live
    rw [hstrong]
  refine b.trade [.arc n] [.arc n, .entry n, .duty n, .pen n] f hn hface hlive
    (.cons rfl (.nil n)) (.cons rfl (.cons rfl (.cons rfl (.cons rfl (.nil n))))) (by simp) ?_
  rw [hstrong, hended, hfree]
  simp only [cons_append, nil_append, tally_cons, add, if_true]
  exact hfair.close htable htemps 1 0 0 false (.inr rfl) rfl

/-- `abort`, and with `shut` a sweep, seal a session. -/
theorem Books.closeSealed (b : Books s (.arc n :: tokens)) (f : ExportSession → ExportSession)
    (hn : s.sessions[n]? = some session) (hterminal : session.terminal = false)
    (hlocked : session.locked = false) (hface : SameFace session (f session))
    (hstrong : (f session).strong = session.strong) (hended : (f session).terminal = true)
    (shut : Bool) (hshut : (f session).locked = shut) :
    Books ((s.modify n f).record (.sealed n))
      (.arc n :: .entry n :: .duty n :: ((if shut then [.shut n] else []) ++ tokens)) := by
  have hfair := b.rolls.fair n session hn
  have htable := b.mem_table hn hterminal
  have htemps := b.temps_le_one session.temp
  rw [hterminal, hlocked] at hfair
  simp only [tally_cons, add, if_true] at hfair
  have hlive : (f session).live = session.live := by
    unfold live
    rw [hstrong]
  have hothers : SameOthers s ((s.modify n f).record (.sealed n)) n session :=
    b.rolls.sameOthers (by rfl) (by rfl) n session
  have hback : AllAbout n (.arc n :: .entry n :: .duty n :: if shut then [.shut n] else []) := by
    cases shut with
    | false => exact .cons rfl (.cons rfl (.cons rfl (.nil n)))
    | true => exact .cons rfl (.cons rfl (.cons rfl (.cons rfl (.nil n))))
  refine b.exchange [.arc n] (.arc n :: .entry n :: .duty n :: if shut then [.shut n] else [])
    [.sealed n] f hn rfl hface hlive ⟨rfl, rfl, rfl⟩ rfl hothers rfl ?_ (.cons rfl (.nil n)) hback
    ?_ ?_ ⟨trivial, b.silent⟩
  · simp [about]
  · cases shut <;> simp
  · rw [hstrong, hended, hshut]
    have hclosed := hfair.close htable htemps 0 1 shut.toNat shut (.inl rfl) rfl
    cases shut with
    | false => simpa [tally_cons, tally_record, add, note] using hclosed
    | true => simpa [tally_cons, tally_record, add, note] using hclosed

theorem Books.dropPen (b : Books s (.pen n :: tokens)) (hn : s.sessions[n]? = some session) :
    Books s tokens := by
  have hfair := b.rolls.fair n session hn
  simp only [tally_cons, add, if_true] at hfair
  have hsame : s.modify n id = s := by
    simp [ExportSessionManager.modify]
  have hnext := b.trade [.pen n] [] id hn ⟨rfl, rfl, rfl⟩ rfl
    (.cons rfl (.nil n)) (.nil n) (by simp) hfair.dropPen
  rwa [hsame] at hnext

/-! ## Temp files and the table -/

/-- A session comes up: it takes over the slot and the target of its begin. -/
theorem Books.prepareSession (b : Books s (.slot :: .target identity :: .fresh id :: tokens))
    (state : ExportSession) (hid : state.id = id) (hidentity : state.identity = identity)
    (hstrong : state.strong = 1) (hterminal : state.terminal = false)
    (hlocked : state.locked = false) :
    Books { s with sessions := s.sessions ++ [state] }
      (.birth s.sessions.length :: .unlisted s.sessions.length ::
        .name s.sessions.length id :: tokens) := by
  obtain ⟨hone, hdrawn, hno⟩ := b.rolls.fresh id (by simp)
  have hnone : Token.fresh id ∉ tokens := by
    intro hin
    have hpos := count_pos_iff.2 hin
    simp only [count_cons, reduceCtorEq, beq_iff_eq, if_false, if_true] at hone
    omega
  have htally : ∀ n, tally { s with sessions := s.sessions ++ [state] } tokens n =
      tally s (.slot :: .target identity :: .fresh id :: tokens) n := by
    intro n
    rw [tally_about_none rfl, tally_about_none rfl, tally_about_none rfl]
    rfl
  have hlive : state.live = true := by
    simp [live, hstrong]
  have hunknown : state.temp ∉ s.activeTemps := by
    intro hin
    obtain ⟨session, hsession, htemp⟩ := b.rolls.tempsKnown _ hin
    refine hno session hsession ?_
    rw [← hid]
    exact congrArg TempPath.id htemp
  have hnew : Fair (tally { s with sessions := s.sessions ++ [state] } (.birth s.sessions.length ::
        .unlisted s.sessions.length :: .name s.sessions.length id :: tokens) s.sessions.length)
      state.strong state.terminal state.locked (s.activeTemps.count state.temp) := by
    rw [hstrong, hterminal, hlocked, count_eq_zero.2 hunknown]
    simp only [tally_cons, add, if_true, htally, b.rolls.blank _ le_rfl]
    constructor <;> simp [openCount]
  have hold : ∀ n, n ≠ s.sessions.length →
      tally { s with sessions := s.sessions ++ [state] } (.birth s.sessions.length ::
        .unlisted s.sessions.length :: .name s.sessions.length id :: tokens) n =
      tally s (.slot :: .target identity :: .fresh id :: tokens) n := by
    intro n hn
    rw [tally_cons, add_other rfl hn, tally_cons, add_other rfl hn, tally_cons,
      add_other rfl hn, htally]
  have hkept : ∀ (n : Nat) (session : ExportSession), s.sessions[n]? = some session →
      (s.sessions ++ [state])[n]? = some session := by
    intro n session hn
    rwa [List.getElem?_append_left (List.getElem?_eq_some_iff.1 hn).1]
  constructor
  · exact
      { b.rolls with
        blank n hn := by
          rw [length_append, length_singleton] at hn
          rw [hold n (by omega)]
          exact b.rolls.blank n (by omega)
        fair n session hn := by
          rcases Nat.lt_trichotomy n s.sessions.length with hlt | rfl | hgt
          · rw [List.getElem?_append_left hlt] at hn
            rw [hold n (by omega)]
            exact b.rolls.fair n session hn
          · rw [List.getElem?_concat_length, some.injEq] at hn
            subst hn
            exact hnew
          · rw [List.getElem?_eq_none (by simp; omega)] at hn
            cases hn
        keyed entry hentry := by
          obtain ⟨session, hsession, hkey⟩ := b.rolls.keyed entry hentry
          exact ⟨session, hkept _ _ hsession, hkey⟩
        names n other hname := by
          simp only [mem_cons, reduceCtorEq, Token.name.injEq, false_or] at hname
          rcases hname with ⟨rfl, rfl⟩ | hname
          · exact ⟨state, List.getElem?_concat_length, hid⟩
          · obtain ⟨session, hsession, hkey⟩ := b.rolls.names n other (by simp [hname])
            exact ⟨session, hkept _ _ hsession, hkey⟩
        tempsKnown temp htemp := by
          obtain ⟨session, hsession, hknown⟩ := b.rolls.tempsKnown temp htemp
          exact ⟨session, mem_append_left _ hsession, hknown⟩
        drawn session hsession := by
          rcases mem_append.1 hsession with hbefore | hthis
          · exact b.rolls.drawn session hbefore
          · rw [mem_singleton.1 hthis, hid]
            exact hdrawn
        distinct := by
          rw [map_append, map_singleton, hid]
          refine nodup_append'.2 ⟨b.rolls.distinct, nodup_singleton _, ?_⟩
          rw [disjoint_singleton]
          intro hin
          obtain ⟨session, hsession, hsame⟩ := mem_map.1 hin
          exact hno session hsession hsame
        fresh other hother := by
          have hin : Token.fresh other ∈ tokens := by simpa using hother
          have hother' : other ≠ id := fun h => hnone (h ▸ hin)
          obtain ⟨hcount, hdrawn', hrest⟩ := b.rolls.fresh other (by simp [hin])
          refine ⟨?_, hdrawn', ?_⟩
          · simpa [count_cons, Ne.symm hother'] using hcount
          · intro session hsession
            rcases mem_append.1 hsession with hbefore | hthis
            · exact hrest session hbefore
            · rw [mem_singleton.1 hthis, hid]
              exact Ne.symm hother' }
  · exact
      { b.house with
        slots := by
          have hslots := b.house.slots
          simp only [count_cons, reduceCtorEq, beq_iff_eq, if_false, if_true] at hslots ⊢
          rw [countP_append, countP_singleton, hlive, if_pos rfl]
          omega
        targets other := by
          have htargets := b.house.targets other
          simp only [count_cons, reduceCtorEq, beq_iff_eq, if_false, Token.target.injEq,
            countP_append, countP_singleton, hlive, hidentity, Bool.true_and] at htargets ⊢
          omega
        ids other := by
          simpa using b.house.ids other }
  · exact b.silent

/-- The temp file of a session that comes up is listed. -/
theorem Books.listTemp (b : Books s (.birth n :: .unlisted n :: tokens))
    (hn : s.sessions[n]? = some session) :
    Books ({ s with activeTemps := session.temp :: s.activeTemps }.record (.tempListed n))
      (.birth n :: .duty n :: tokens) := by
  have hfair := b.rolls.fair n session hn
  simp only [tally_cons, add, if_true] at hfair
  have hunknown : session.temp ∉ s.activeTemps := by
    rw [← count_eq_zero]
    have htemp := hfair.temp
    have hunlisted := hfair.unlisted (by simp)
    obtain ⟨-, -, htable, hterminal⟩ := hfair.births (by simp)
    simp only [openCount, hterminal, Bool.false_eq_true, if_false] at htemp htable hunlisted
    omega
  have hothers : SameOthers s
      ({ s with activeTemps := session.temp :: s.activeTemps }.record (.tempListed n)) n session :=
    { keys := b.rolls.keys
      entries _ h := .inl h
      table _ _ := rfl
      tempsNodup := nodup_cons.2 ⟨hunknown, b.rolls.tempsNodup⟩
      temps temp htemp := count_cons_of_ne (Ne.symm htemp) }
  refine b.exchange [.birth n, .unlisted n] [.birth n, .duty n] [.tempListed n] id hn
    (modify_id n s.sessions).symm ⟨rfl, rfl, rfl⟩ rfl ⟨rfl, rfl, rfl⟩ rfl hothers rfl ?_
    (.cons rfl (.cons rfl (.nil n))) (.cons rfl (.cons rfl (.nil n))) (by simp) ?_
    ⟨trivial, b.silent⟩
  · simp [about]
  · rw [tally_record, activeTemps_record, count_cons_self]
    simp only [cons_append, nil_append, tally_cons, add, note, if_true]
    exact hfair.listTemp

/-- The entry of a temp file is released. -/
theorem Books.unlistTemp (b : Books s (.duty n :: tokens)) (hn : s.sessions[n]? = some session) :
    Books (s.unlistTemp n session.temp) tokens := by
  have hfair := b.rolls.fair n session hn
  simp only [tally_cons, add, if_true] at hfair
  have hothers : SameOthers s (s.unlistTemp n session.temp) n session :=
    { keys := b.rolls.keys
      entries _ h := .inl h
      table _ _ := rfl
      tempsNodup := b.rolls.tempsNodup.erase _
      temps temp htemp := count_erase_of_ne htemp }
  refine b.exchange [.duty n] [] [.tempReleased n] id hn (modify_id n s.sessions).symm
    ⟨rfl, rfl, rfl⟩ rfl ⟨rfl, rfl, rfl⟩ rfl hothers rfl ?_ (.cons rfl (.nil n)) (.nil n) (by simp)
    ?_ ⟨trivial, b.silent⟩
  · simp [about]
  · rw [ExportSessionManager.unlistTemp, tally_record, activeTemps_record, count_erase_self]
    simp only [nil_append, note, if_true]
    exact hfair.unlistTemp

/-- The session is put in the table, and its begin keeps a clone. -/
theorem Books.insert (b : Books s (.birth n :: .duty n :: tokens))
    (hn : s.sessions[n]? = some session) :
    Books { s.cloneArc n with table := (session.id, n) :: s.table } (.arc n :: tokens) := by
  have hfair := b.rolls.fair n session hn
  simp only [tally_cons, add, if_true] at hfair
  obtain ⟨-, -, htable, -⟩ := hfair.births (by simp)
  have hnot : ∀ entry ∈ s.table, entry.2 ≠ n := by
    intro entry hentry hthis
    have hpos : 0 < (s.table.map Prod.snd).count n :=
      count_pos_iff.2 (mem_map.2 ⟨entry, hentry, hthis⟩)
    simp only [tally] at htable
    omega
  have hunknown : session.id ∉ s.table.map Prod.fst := by
    intro hin
    obtain ⟨entry, hentry, hkey⟩ := mem_map.1 hin
    obtain ⟨other, hother, hid⟩ := b.rolls.keyed entry hentry
    exact hnot entry hentry (b.rolls.id_injective hother hn (hid.trans hkey))
  have hothers : SameOthers s { s.cloneArc n with table := (session.id, n) :: s.table } n session :=
    { keys := nodup_cons.2 ⟨hunknown, b.rolls.keys⟩
      entries entry hentry := (mem_cons.1 hentry).symm
      table m hm := count_cons_of_ne (Ne.symm hm)
      tempsNodup := b.rolls.tempsNodup
      temps _ _ := rfl }
  have hlive : live { session with strong := session.strong + 1 } = session.live := by
    have hstrong := hfair.strong
    unfold live
    rw [decide_eq_decide]
    simp only at hstrong ⊢
    omega
  refine b.exchange [.birth n, .duty n] [.arc n] []
    (fun session => { session with strong := session.strong + 1 }) hn rfl ⟨rfl, rfl, rfl⟩ hlive
    ⟨rfl, rfl, rfl⟩ rfl hothers rfl ?_ (.cons rfl (.cons rfl (.nil n))) (.cons rfl (.nil n))
    (by simp) ?_ b.silent
  · simp
  · have hcount : tally { s.cloneArc n with table := (session.id, n) :: s.table } tokens n =
        { tally s tokens n with table := (tally s tokens n).table + 1 } := by
      simp [tally, ExportSessionManager.cloneArc, ExportSessionManager.modify]
    simp only [cons_append, nil_append, tally_cons, add, if_true, hcount]
    exact hfair.insert

/-- The place in the table goes to a clone, which is then dropped. -/
theorem Books.leaveTable (b : Books s (.entry n :: tokens)) (hn : s.sessions[n]? = some session)
    (hin : (session.id, n) ∈ s.table) :
    Books { s with table := s.table.erase (session.id, n) } (.arc n :: tokens) := by
  have hfair := b.rolls.fair n session hn
  simp only [tally_cons, add, if_true] at hfair
  have hmem : n ∈ s.table.map Prod.snd := mem_map.2 ⟨_, hin, rfl⟩
  have hpos : 0 < (tally s tokens n).table := count_pos_iff.2 hmem
  have herase : ∀ m, ((s.table.erase (session.id, n)).map Prod.snd).count m =
      ((s.table.map Prod.snd).erase n).count m := by
    intro m
    have hperm := (perm_cons_erase hin).map Prod.snd
    have hother := perm_cons_erase hmem
    have hcount := (hperm.symm.trans hother).count_eq m
    simp only [map_cons, count_cons] at hcount
    omega
  have hothers : SameOthers s { s with table := s.table.erase (session.id, n) } n session :=
    { keys := b.rolls.keys.sublist ((erase_sublist).map _)
      entries entry hentry := .inl (mem_of_mem_erase hentry)
      table m hm := (herase m).trans (count_erase_of_ne hm)
      tempsNodup := b.rolls.tempsNodup
      temps _ _ := rfl }
  refine b.exchange [.entry n] [.arc n] [] id hn (modify_id n s.sessions).symm
    ⟨rfl, rfl, rfl⟩ rfl ⟨rfl, rfl, rfl⟩ rfl hothers rfl ?_ (.cons rfl (.nil n))
    (.cons rfl (.nil n)) (by simp) ?_ b.silent
  · simp
  · have hcount : tally { s with table := s.table.erase (session.id, n) } tokens n =
        { tally s tokens n with table := (tally s tokens n).table - 1 } := by
      simp only [tally, herase, count_erase_self]
    simp only [cons_append, nil_append, tally_cons, add, if_true, hcount]
    exact hfair.leaveTable hpos

/-- The table has no place of the session any more. -/
theorem Books.forgetEntry (b : Books s (.entry n :: tokens)) (hn : s.sessions[n]? = some session)
    (hno : (session.id, n) ∉ s.table) : Books s tokens := by
  have hfair := b.rolls.fair n session hn
  simp only [tally_cons, add, if_true] at hfair
  have hzero : (tally s tokens n).table = 0 := by
    simp only [tally]
    rw [count_eq_zero]
    intro hin
    obtain ⟨entry, hentry, rfl⟩ := mem_map.1 hin
    obtain ⟨other, hother, hid⟩ := b.rolls.keyed entry hentry
    rw [hn, some.injEq] at hother
    subst hother
    exact hno (hid ▸ hentry)
  have hsame : s.modify n id = s := by
    simp [ExportSessionManager.modify]
  have hnext := b.trade [.entry n] [] id hn ⟨rfl, rfl, rfl⟩ rfl (.cons rfl (.nil n)) (.nil n)
    (by simp) (hfair.forgetEntry hzero)
  rwa [hsame] at hnext

/-! ## Clones that are dropped -/

/-- A token about a session is about one that there is. -/
theorem Books.known {token : Token} (b : Books s (token :: tokens))
    (h : ∀ c, add c n token ≠ {}) : ∃ session, s.sessions[n]? = some session := by
  have hlt : n < s.sessions.length := by
    by_contra hno
    have hblank := b.rolls.blank n (Nat.le_of_not_lt hno)
    rw [tally_cons] at hblank
    exact h _ hblank
  exact ⟨_, getElem?_eq_getElem hlt⟩

theorem Books.known_arc (b : Books s (.arc n :: tokens)) :
    ∃ session, s.sessions[n]? = some session := by
  refine b.known fun c h => ?_
  have harcs := congrArg arcs h
  simp [add] at harcs

theorem Books.dropArc (b : Books s (.arc n :: tokens)) : Books (s.dropArc n) tokens := by
  obtain ⟨session, hn⟩ := b.known_arc
  simp only [ExportSessionManager.dropArc, hn]
  split
  · rename_i hlast
    exact (b.dropLast hn hlast).releaseSlot.releaseTarget
  · rename_i hmore
    have hfair := b.rolls.fair n session hn
    simp only [tally_cons, add, if_true] at hfair
    have hlive : live { session with strong := session.strong - 1 } =
        session.live := by
      have hstrong := hfair.strong
      unfold live
      rw [decide_eq_decide]
      simp only at hstrong ⊢
      omega
    exact b.trade [.arc n] [] _ hn ⟨rfl, rfl, rfl⟩ hlive (.cons rfl (.nil n)) (.nil n) (by simp)
      hfair.dropArc

/-- The table has one entry for each id. -/
theorem Rolls.get_eq_some (r : Rolls s tokens) : s.get id = some n ↔ (id, n) ∈ s.table := by
  unfold ExportSessionManager.get
  rw [map_eq_some_iff]
  constructor
  · rintro ⟨entry, hfind, rfl⟩
    have hkey := find?_some hfind
    rw [← beq_iff_eq.1 hkey]
    exact mem_of_find?_eq_some hfind
  · intro hin
    have hsome : (s.table.find? (·.1 == id)).isSome := by
      rw [find?_isSome]
      exact ⟨_, hin, beq_self_eq_true id⟩
    obtain ⟨entry, hfind⟩ := isSome_iff_exists.1 hsome
    have hkey : entry.1 = id := by
      have hholds := find?_some hfind
      exact beq_iff_eq.1 hholds
    have hsame : entry = (id, n) :=
      inj_on_of_nodup_map r.keys (mem_of_find?_eq_some hfind) hin hkey
    exact ⟨entry, hfind, congrArg Prod.snd hsame⟩

theorem Books.removeCurrent (b : Books s (.entry n :: tokens)) (id : String)
    (hname : .name n id ∈ tokens) : Books (s.removeCurrent id n) tokens := by
  obtain ⟨session, hn, rfl⟩ := b.rolls.names n id (mem_cons_of_mem _ hname)
  unfold ExportSessionManager.removeCurrent
  split
  · rename_i hget
    exact (b.leaveTable hn (b.rolls.get_eq_some.1 hget)).dropArc
  · rename_i hno
    exact b.forgetEntry hn fun hin => hno (b.rolls.get_eq_some.2 hin)

end bbcom.export_session
