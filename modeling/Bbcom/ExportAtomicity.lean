-- The export sessions (`session.rs`) are atomic: a target is replaced once and by what was
-- appended, or not at all.
import Bbcom.ExportPieces

open bbcom.js bbcom.tokens bbcom.runs

namespace bbcom.export_session

open List Happening Call List ExportSessionManager

variable {host : Host} {files : String → Option Uint8Array} {s t : ExportSessionManager}
  {session : ExportSession} {call n : Nat}

/-! ## Runs -/

/-- The books are kept, what is written and settled is sound, and each call knows where it is. -/
structure Whole (host : Host) (files : String → Option Uint8Array) (s : ExportSessionManager) :
    Prop where
  books : Inv s
  sound : Sound host files s (held fates s.calls)
  fine : ∀ stage ∈ s.calls, Fine host s stage

theorem whole_new (host : Host) (files : String → Option Uint8Array)
    (temps : TempPath → Option Uint8Array) : Whole host files { files, temps } where
  books := books_new.files files temps
  sound :=
    { counted _ hmem := absurd hmem not_mem_nil
      once _ := ⟨fun _ => ⟨rfl, rfl⟩, Nat.zero_le _, rfl⟩
      files := rfl
      told _ hmem := absurd hmem not_mem_nil }
  fine _ hmem := absurd hmem not_mem_nil

/-- A session that a call has a clone of is referenced. -/
theorem Inv.live_of_arc (h : Inv s) (hn : s.sessions[n]? = some session)
    (harc : .arc n ∈ held holds s.calls) : session.live = true := by
  have hstrong := h.balanced.references n session hn
  have hpos := count_pos_iff.2 harc
  unfold ExportSession.live
  rw [decide_eq_true_eq]
  omega

variable {stage : Call}

theorem Call.arc_of_kept (h : .kept n ∈ stage.fates) : .arc n ∈ stage.holds := by
  cases stage with
  | closing id m steps result =>
    cases result with
    | finished result =>
      cases result <;> simp_all [fates, holds]
    | aborted => simp [fates] at h
  | _ => simp_all [fates, holds]

/-- The tokens and the fates keep the others apart from a piece. -/
theorem Whole.apart (h : Whole host files s) {other : Call} {i : Nat}
    (hstage : s.calls[call]? = some stage) (hi : i ≠ call) (hother : s.calls[i]? = some other) :
    Apart stage.shows s other := by
  have hfates := fun n => @stand_perm s.log _ _ (@held_perm _ _ fates _ _ _ hstage) n
  have honce := fun n => (h.sound.once n).once
  have htwice : ∀ (n : Nat) (fate : Fate), .undecided n ∈ stage.fates → fate.about = n →
      fate ∉ other.fates := by
    intro n fate hmine habout htheirs
    have hfirst := count_pos_iff.2 hmine
    have hsecond := count_pos_iff.2 (mem_others hi hother htheirs)
    have hless := honce n
    rw [hfates n] at hless
    simp only [stand, count_append] at hless
    cases fate with
    | undecided m | kept m | lost m =>
      have hsame : m = n := habout
      subst hsame
      omega
  refine ⟨fun n hpiece htheirs => ?_, fun n hpiece => ?_, fun n m hpiece htheirs session target
    hn hm => ?_⟩
  · cases stage with
    | appending m frames encoded nextFrameCount nextRawBytes =>
      cases hpiece
      have hsecond := count_pos_iff.2 (mem_others hi hother htheirs)
      have hhand := Books.perm h.books (held_perm hstage)
      obtain ⟨session, hn⟩ := Books.known_arc (n := n) hhand
      have hlocks := (hhand.rolls.fair n session hn).locks
      have hbit := Bool.toNat_le session.locked
      simp only [tally, count_append, holds, count_cons, beq_self_eq_true, if_true] at hlocks
      omega
    | _ => cases hpiece
  · cases stage with
    | flushing => cases hpiece; exact htwice n _ (by simp [fates]) rfl
    | _ => cases hpiece
  · cases stage with
    | replacing id k stats =>
      cases hpiece
      have hmine : Fate.undecided n ∈ (replacing id n stats).fates := by simp [fates]
      by_cases hsame : m = n
      · subst hsame
        exact absurd htheirs (htwice m _ hmine rfl)
      · refine h.books.balanced.distinct n m session target (Ne.symm hsame) hn hm ?_ ?_
        · refine h.books.live_of_arc hn (mem_flatMap.2 ⟨_, mem_of_getElem? hstage, ?_⟩)
          simp [holds]
        · exact h.books.live_of_arc hm (mem_flatMap.2
            ⟨_, mem_of_getElem? hother, arc_of_kept htheirs⟩)
    | _ => cases hpiece

/-- A call that acts leaves the others what they knew. -/
theorem Acts.whole (h : Whole host files s) (hstage : s.calls[call]? = some stage)
    (hacts : Acts host files s call (others fates s.calls call) stage.shows t) (hinv : Inv t) :
    Whole host files t := by
  obtain ⟨next, hcalls, hgoes, hnext, hsound⟩ := hacts
  have hlt : call < s.calls.length := (List.getElem?_eq_some_iff.1 hstage).1
  refine ⟨hinv, ?_, fun other hmem => ?_⟩
  · rw [hcalls]
    exact hsound.perm (held_set_perm hlt next).symm
  · rw [hcalls] at hmem
    obtain ⟨i, hi⟩ := mem_iff_getElem?.1 hmem
    by_cases hsame : i = call
    · rw [hsame, List.getElem?_set_self hlt, Option.some.injEq] at hi
      exact hi ▸ hnext
    · rw [List.getElem?_set_ne (Ne.symm hsame)] at hi
      exact (h.fine other (mem_of_getElem? hi)).goes hgoes (h.apart hstage hsame hi)

/-- A call comes up that has settled nothing. -/
theorem Whole.enters {next : Call} (h : Whole host files s) (hcalm : Calm s t)
    (hfates : next.fates = []) (hfine : Fine host t next)
    (hinv : Inv { t with calls := t.calls ++ [next] }) :
    Whole host files { t with calls := t.calls ++ [next] } := by
  refine ⟨hinv, ?_, fun other hmem => ?_⟩
  · have hsound := h.sound.calm hcalm
    rw [hcalm.calls, held_snoc hfates]
    exact ⟨hsound.counted, hsound.once, hsound.files, hsound.told⟩
  · obtain hold | hnew := mem_append.1 hmem
    · rw [hcalm.calls] at hold
      have hstill : Fine host t other := (h.fine other hold).calm hcalm
      exact hstill
    · rw [mem_singleton.1 hnew]
      exact hfine

theorem validateFrames_total {count : Nat} {frames : List DataFramePayload} {total batchBytes : Nat}
    (h : validateFrames count total frames = .ok batchBytes) :
    batchBytes = total + rawBytesOf frames := by
  induction frames generalizing total with
  | nil =>
    cases h
    rfl
  | cons frame frames ih =>
    unfold validateFrames at h
    split at h
    · cases h
    · split at h
      · cases h
      · split at h
        · cases h
        · split at h
          · cases h
          · rw [ih h, rawBytesOf, rawBytesOf, map_cons, sum_cons, Nat.add_assoc]

/-- Each step meets what the export manager counts on: sweeps take only sessions that are not
terminal, and finishes commit. -/
def Undamaged (s : ExportSessionManager) (e : ExportEvent) : Prop :=
  Guarded s e ∧
    match e with
    | .proceed call io => ∀ stage ∈ s.calls[call]?, Commits s io stage
    | _ => True

theorem calm_cloneAll (entries : List (String × Nat)) (s : ExportSessionManager) :
    Calm s (entries.foldl (fun s entry => s.cloneArc entry.2) s) := by
  induction entries generalizing s with
  | nil => exact .refl s
  | cons entry entries ih =>
    have hclone : Calm s (s.cloneArc entry.2) := calm_modify fun _ => rfl
    exact hclone.trans (ih (s.cloneArc entry.2))

theorem enter_whole (h : Whole host files s) (id : String) (first : Nat → Call)
    (hfates : ∀ n, (first n).fates = []) (hfine : ∀ t n, Fine host t (first n))
    (hinv : Inv (enter s id first)) : Whole host files (enter s id first) := by
  unfold enter at hinv ⊢
  cases hget : s.get id with
  | none => exact h
  | some n =>
    rw [hget] at hinv
    have hclone : Calm s (s.cloneArc n) := calm_modify fun _ => rfl
    exact h.enters hclone (hfates n) (hfine _ n) hinv

theorem step_whole {e : ExportEvent} (hguard : Undamaged s e) (h : Whole host files s) :
    Whole host files (step host s e) := by
  have hinv : Inv (step host s e) := step_inv hguard.1 h.books
  cases e with
  | begin request =>
    simp only [step] at hinv ⊢
    split
    · exact h
    · rename_i hvalid
      rw [hvalid] at hinv
      exact h.enters (calm_cloneAll s.table s) rfl trivial hinv
  | append id frames internal =>
    simp only [step] at hinv ⊢
    split
    · exact h
    · rename_i batchBytes hvalid
      rw [hvalid] at hinv
      refine enter_whole h id _ (fun _ => rfl) (fun _ _ => ?_) hinv
      unfold validateFrameBatch at hvalid
      split at hvalid
      · cases hvalid
      · exact (validateFrames_total hvalid).trans (Nat.zero_add _)
  | finish id => exact enter_whole h id _ (fun _ => rfl) (fun _ _ => trivial) hinv
  | abort id => exact enter_whole h id _ (fun _ => rfl) (fun _ _ => trivial) hinv
  | proceed call io =>
    simp only [step] at hinv ⊢
    split
    · exact h
    · rename_i stage hstage
      rw [hstage] at hinv
      have hhand := Books.perm h.books (held_perm hstage)
      have hfates := h.sound.perm (held_perm hstage)
      obtain hsame | hacts := proceed_acts call io hhand hfates
        (h.fine stage (mem_of_getElem? hstage)) (hguard.1 stage hstage)
        (hguard.2 stage hstage)
      · rw [hsame]
        exact h
      · exact hacts.whole h hstage hinv
  | tick seconds =>
    exact ⟨hinv, ⟨h.sound.counted, h.sound.once, h.sound.files, h.sound.told⟩, h.fine⟩

/-! ## Atomicity -/

structure Atomic (host : Host) (files : String → Option Uint8Array) (s : ExportSessionManager) :
    Prop where
  /-- The files are what the replacements have made of them. -/
  files : s.files = replay files s.log
  own : ∀ n identity contents, .replaced n identity contents ∈ s.log →
    ∃ session, s.sessions[n]? = some session ∧ session.identity = identity
  /-- While a session is referenced, only its own finish replaces its target. -/
  alone : ∀ (n : Nat) (session : ExportSession) (e : ExportEvent), s.sessions[n]? = some session →
    session.live = true → Undamaged s e →
      (step host s e).files session.identity ≠ s.files session.identity →
        s.log.countP (isReplaced n) < (step host s e).log.countP (isReplaced n)
  /-- A failed finish, an abort or an expiry goes with no replacement. -/
  unchanged : ∀ n, 0 < s.log.countP (isFailed n) + s.log.countP (isExpired n) →
    s.log.countP (isReplaced n) = 0
  /-- Where it is not removed, the temp file is left to the next reconciliation. -/
  removed : ∀ (n : Nat) (session : ExportSession), s.sessions[n]? = some session →
    0 < s.log.countP (isFailed n) → session.temp ∉ s.activeTemps
  /-- As long as that of an expired session is listed, the sweep has its removal on the way. -/
  reclaimed : ∀ (n : Nat) (session : ExportSession), s.sessions[n]? = some session →
    0 < s.log.countP (isExpired n) → session.temp ∈ s.activeTemps →
      .duty n ∈ held holds s.calls
  /-- A finish that succeeds leaves the header and the frames of the appends that returned. -/
  succeeded : ∀ n stats target, .finished n (.ok stats) target ∈ s.log →
    ∃ session body, s.sessions[n]? = some session ∧
      encodeFrames host.library session.request.format session.request.target.name
        session.acknowledged = .ok body ∧
      target = some (header session.request.format ++ body) ∧
      stats = ⟨session.acknowledged.length, rawBytesOf session.acknowledged,
        min (header session.request.format ++ body).length (2 ^ 64 - 1)⟩

/-- A piece that changes a file replaces the target of its session. -/
theorem proceed_files {io : Io} {identity : String}
    (hgoes : Goes stage.shows s (proceed host s call io stage))
    (hchanged : (proceed host s call io stage).files identity ≠ s.files identity) :
    ∃ n session, stage.shows = .replaces n ∧ s.sessions[n]? = some session ∧
      session.identity = identity ∧ s.log.countP (isReplaced n) <
        (proceed host s call io stage).log.countP (isReplaced n) := by
  have hpiece : ∃ n session, stage.shows = .replaces n ∧ s.sessions[n]? = some session ∧
      session.identity = identity := by
    by_contra hnone
    refine hchanged (hgoes.files identity fun n session hshows hn hsame => ?_)
    exact hnone ⟨n, session, hshows, hn, hsame⟩
  obtain ⟨n, session, hshows, hn, hidentity⟩ := hpiece
  refine ⟨n, session, hshows, hn, hidentity, ?_⟩
  cases stage with
  | replacing id m stats =>
    cases hshows
    revert hchanged
    simp only [proceed, hn]
    split
    · intro _
      simp [goOn, record, isReplaced]
    · intro hchanged
      exact absurd rfl hchanged
  | _ => cases hshows

theorem cloneAll_files (entries : List (String × Nat)) (s : ExportSessionManager) :
    (entries.foldl (fun s entry => s.cloneArc entry.2) s).files = s.files :=
  (calm_cloneAll entries s).files

theorem enter_files (s : ExportSessionManager) (id : String) (first : Nat → Call) :
    (enter s id first).files = s.files := by
  unfold enter
  split <;> rfl

theorem Whole.alone (h : Whole host files s) (hn : s.sessions[n]? = some session)
    (hlive : session.live = true) {e : ExportEvent} (hguard : Undamaged s e)
    (hchanged : (step host s e).files session.identity ≠ s.files session.identity) :
    s.log.countP (isReplaced n) <
      (step host s e).log.countP (isReplaced n) := by
  cases e with
  | begin request =>
    simp only [step] at hchanged
    split at hchanged
    · exact absurd rfl hchanged
    · exact absurd (congrFun (cloneAll_files s.table s) _) hchanged
  | append id frames internal =>
    simp only [step] at hchanged
    split at hchanged
    · exact absurd rfl hchanged
    · exact absurd (congrFun (enter_files s id _) _) hchanged
  | finish id => exact absurd (congrFun (enter_files s id _) _) hchanged
  | abort id => exact absurd (congrFun (enter_files s id _) _) hchanged
  | tick seconds => exact absurd rfl hchanged
  | proceed call io =>
    simp only [step] at hchanged ⊢
    split at hchanged
    · exact absurd rfl hchanged
    · rename_i stage hstage
      have hhand := Books.perm h.books (held_perm hstage)
      obtain hsame | ⟨_, -, hgoes, -, -⟩ := proceed_acts call io hhand
        (h.sound.perm (held_perm hstage)) (h.fine stage (mem_of_getElem? hstage))
        (hguard.1 stage hstage) (hguard.2 stage hstage)
      · rw [hsame] at hchanged
        exact absurd rfl hchanged
      · obtain ⟨m, other, hshows, hm, hidentity, hless⟩ := proceed_files hgoes hchanged
        have hthis : m = n := by
          by_contra hne
          refine h.books.balanced.distinct m n other session hne hm hn ?_ hlive hidentity
          refine h.books.live_of_arc hm (mem_flatMap.2 ⟨_, mem_of_getElem? hstage, ?_⟩)
          cases stage with
          | replacing id k stats =>
            cases hshows
            simp [holds]
          | _ => cases hshows
        subst hthis
        exact hless

theorem isFailed_mem {happening : Happening} (h : happening.isFailed n = true) :
    (∃ error target, happening = .finished n (.error error) target) ∨ happening = .aborted n := by
  cases happening with
  | finished m result target =>
    cases result with
    | ok => cases h
    | error error => exact .inl ⟨error, target, by rw [beq_iff_eq.1 h]⟩
  | aborted m => exact .inr (by rw [beq_iff_eq.1 h])
  | _ => cases h

theorem Whole.atomic (h : Whole host files s) : Atomic host files s where
  files := h.sound.files
  own n identity contents hmem := h.sound.told _ hmem
  alone n session e hn hlive hguard := h.alone hn hlive hguard
  unchanged n hpos := by
    have honce := h.sound.once n
    have hless := honce.once
    have hreplaced := honce.replaced
    simp only [stand] at hless hreplaced
    omega
  removed n session hn hpos := by
    obtain ⟨happening, hmem, hfailed⟩ := countP_pos_iff.1 hpos
    have htold := h.sound.told happening hmem
    have hreleased : 0 < s.log.countP (isReleased n) := by
      obtain ⟨error, target, rfl⟩ | rfl := isFailed_mem hfailed
      · exact htold
      · exact htold
    obtain ⟨honce, hlisted⟩ := h.books.balanced.tempsReleased n session hn
    intro hin
    rw [if_pos hin] at hlisted
    omega
  reclaimed n session hn hpos hin := by
    have honce := h.sound.stands hn
    obtain hopen | hduty := (h.books.balanced.temps n session hn).1 hin
    · have hnone := (honce.begun hopen.1).2
      simp only [stand] at hnone
      omega
    · exact hduty
  succeeded n stats target hmem := by
    obtain ⟨session, contents, hn, hterminal, rfl, rfl, body, hbody, rfl⟩ := h.sound.told _ hmem
    have hcounted := h.sound.counted session (mem_of_getElem? hn)
    refine ⟨session, body, hn, hbody, rfl, ?_⟩
    obtain ⟨_, ⟨body', hbody', rfl⟩, houtput⟩ := hcounted.outputBytes
    rw [hbody, Except.ok.injEq] at hbody'
    subst hbody'
    unfold ExportSession.stats
    rw [hcounted.frames, hcounted.rawBytes, houtput]

instance (s : ExportSessionManager) (io : Io) (stage : Call) : Decidable (Commits s io stage) :=
  match stage with
  | .replacing _ n _ => inferInstanceAs (Decidable (io.ok = true → ∀ session ∈ s.sessions[n]?,
    (s.temps session.temp).isSome = true → session.spoiled = false))
  | .syncingParent _ _ _ => inferInstanceAs (Decidable (io.ok = true))
  | .sweeping _ _ _ _ | .expiring _ _ _ _ _ _ | .disposing _ _ | .disposed _ _ _
  | .canonicalizing _ | .snapshotting _ _ | .reconciling _ _ _ | .naming _ _ _ | .creating _ _ _
  | .initializing _ _ _ | .discarding _ _ _ | .undoing _ _ _ | .listing _ _ | .inserting _ _
  | .unreserving _ _ | .appendWaits _ _ _ _ | .appending _ _ _ _ _ | .finishWaits _ _
  | .flushing _ _ _ _ | .syncing _ _ _ | .closing _ _ _ _ | .abortWaits _ _ | .returned =>
    .isTrue trivial

instance (s : ExportSessionManager) : DecidablePred (Undamaged s) := fun e =>
  match e with
  | .proceed call io => inferInstanceAs (Decidable (Guarded s (.proceed call io) ∧
    ∀ stage ∈ s.calls[call]?, Commits s io stage))
  | .begin _ | .append _ _ _ | .finish _ | .abort _ | .tick _ => .isTrue ⟨trivial, trivial⟩

end bbcom.export_session
