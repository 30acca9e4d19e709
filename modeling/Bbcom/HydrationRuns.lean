-- Runs of the staging. A server that answers from one stored workspace gets it staged; what any
-- server gets staged has come in pages that follow each other.
import Bbcom.HydrationExact

open bbcom.js bbcom.ordered_map bbcom.page_loop bbcom.session_adapter
open bbcom.write_epoch (MAX_SAFE_INTEGER)
open bbcom.capture (validNonNegativeInteger validateWorkspaceIdentifier)
open bbcom.contracts (MAX_WORKSPACE_SESSIONS MAX_WORKSPACE_FRAMES_PER_SESSION
  MAX_WORKSPACE_AI_MESSAGES)

namespace bbcom.hydration_staging

open List Option OrderedMap

variable {D F P K C : Type} {stage : Stage} {adapter : SessionAdapter D F P K C}
  {s : State D F P K C} {stored : List (StoredSession D P C)} {lost : Prop}

/-! ## What the adapter takes -/

theorem storedSeq_valid {frame : WorkspaceHydratedFrame} {seq : Nat}
    (h : validNonNegativeInteger frame.seq = some seq) : storedSeq frame = seq := by
  unfold storedSeq
  unfold validNonNegativeInteger integerBetween at h
  generalize frame.seq = number at h ⊢
  cases number with
  | finite q =>
    simp only at h
    split at h
    · exact Option.some.inj h
    · cases h
  | negativeZero => exact Option.some.inj h
  | _ => cases h

variable {frames : List WorkspaceHydratedFrame} {sessionId : String} {task : SessionTask P C}
  {next : Option Nat} {e : Event D P C} {s' : State D F P K C}

theorem hydrateFrames_valid {previous : Int} {hydrated : List serial.DataFrame}
    (h : hydrateFrames previous frames = .ok hydrated) :
    ∀ frame ∈ frames, validNonNegativeInteger frame.seq = some (storedSeq frame) := by
  induction frames generalizing previous hydrated with
  | nil => simp
  | cons first rest ih =>
    simp only [hydrateFrames, bind_eq_ok, nonNegativeInteger_ok] at h
    obtain ⟨seq, hseq, _, -, _, -, others, hothers, -⟩ := h
    intro frame hframe
    rcases mem_cons.1 hframe with rfl | hrest
    · rw [hseq, storedSeq_valid hseq]
    · exact ih hothers frame hrest

variable {session : StoredSession D P C}

theorem hydrateStored_readable {hydrated : HydratedWorkspaceSession F K C}
    (h : hydrateStored adapter session = .ok hydrated) : Readable session := by
  simp only [hydrateStored, hydrateWorkspaceSession, hydrateAiMessages, projectAiMessages,
    StoredSession.parts, bind_eq_ok, assertLimit_ok] at h
  obtain ⟨-, hfew, -, -, id, -, ⟨fields, preferences⟩, -, collections, -, messages,
    ⟨-, -, -, hmessages, -⟩, frames, hframes, -⟩ := h
  exact ⟨hfew, hmessages, hydrateFrames_valid hframes⟩

theorem mapM_forall₂ {α β ε : Type} {f : α → Except ε β} {items : List α} {results : List β}
    (h : items.mapM f = .ok results) : Forall₂ (fun item result => f item = .ok result) items
      results := by
  induction items generalizing results with
  | nil =>
    cases h
    exact .nil
  | cons first rest ih =>
    simp only [mapM_cons, bind_eq_ok] at h
    obtain ⟨result, hresult, others, hothers, hpure⟩ := h
    cases hpure
    exact .cons hresult (ih hothers)

theorem forall₂_get {α β : Type} {R : α → β → Prop} {items : List α} {results : List β}
    (h : Forall₂ R items results) {index : Nat} {item : α} {result : β}
    (hitem : items[index]? = some item) (hresult : results[index]? = some result) :
    R item result := by
  induction h generalizing index with
  | nil => cases hitem
  | cons hfirst _ ih =>
    cases index with
    | zero =>
      cases hitem
      cases hresult
      exact hfirst
    | succ index => exact ih hitem hresult

/-! ## A consistent server -/

/-- What the list has of a stored session. -/
structure ItemExact (lost : Prop) (adapter : SessionAdapter D F P K C)
    (session : StoredSession D P C) (item : Item D F P K C) : Prop where
  snapshot : item.snapshot = session.snapshot
  staging : ∀ task, item.phase = .staging task → TaskExact lost session task
  staged : ∀ task hydrated, item.phase = .staged task hydrated →
    hydrateStored adapter session = .ok hydrated

/-- The list, and each session of it, as it is stored. `lost` is what follows if the staging has
been rejected. -/
structure Exact (lost : Prop) (adapter : SessionAdapter D F P K C)
    (stored : List (StoredSession D P C)) (s : State D F P K C) : Prop where
  list : Complete lost (· ≤ (stored.map (·.snapshot)).length) (stored.map (·.snapshot)).drop
    (stored.map (·.snapshot)) id s.sessions
  items : ∀ (index : Nat) item, s.items[index]? = some item →
    ∃ session, stored[index]? = some session ∧ ItemExact lost adapter session item
  kept : ¬lost → ∀ error, s.outcome ≠ some (.error error)

/-- What the staging needs where it must not be rejected. -/
structure Accepted (stage : Stage) (adapter : SessionAdapter D F P K C)
    (stored : List (StoredSession D P C)) : Prop where
  requests : ∀ n, ∃ request, nextRequestId stage n = .ok request
  staged : ∃ staging, stageStored stage adapter stored = .ok staging

theorem Accepted.hydrated (h : Accepted stage adapter stored) :
    ∃ hydrated, stored.mapM (hydrateStored adapter) = .ok hydrated ∧
      ∃ staging, conclude stage (stored.map (·.snapshot)) hydrated = .ok staging := by
  obtain ⟨staging, hstaged⟩ := h.staged
  simp only [stageStored, bind_eq_ok] at hstaged
  obtain ⟨_, -, hydrated, hmap, hconclude⟩ := hstaged
  exact ⟨hydrated, hmap, staging, hconclude⟩

/-- A session that is stored is one that the adapter takes. -/
theorem Accepted.readable (h : Accepted stage adapter stored) {index : Nat}
    (hsession : stored[index]? = some session) :
    ∃ hydrated, hydrateStored adapter session = .ok hydrated := by
  obtain ⟨results, hmap, -⟩ := h.hydrated
  have hresults := mapM_forall₂ hmap
  have hlt : index < results.length := hresults.length_eq ▸ (List.getElem?_eq_some_iff.1 hsession).1
  exact ⟨results[index], forall₂_get hresults hsession (List.getElem?_eq_getElem hlt)⟩

theorem Accepted.few (h : Accepted stage adapter stored) :
    stored.length ≤ MAX_WORKSPACE_SESSIONS := by
  obtain ⟨staging, hstaged⟩ := h.staged
  simp only [stageStored, bind_eq_ok, assertLimit_ok] at hstaged
  exact hstaged.choose_spec.1

/-- The sessions of a list that is staged are what is stored. -/
theorem hydrated_stored {items : List (Item D F P K C)}
    {hydrated : List (HydratedWorkspaceSession F K C)} (hlength : items.length = stored.length)
    (hitems : ∀ (index : Nat) item, items[index]? = some item →
      ∃ session, stored[index]? = some session ∧ ItemExact lost adapter session item)
    (hmap : items.mapM Item.hydrated = some hydrated) :
    stored.mapM (hydrateStored adapter) = .ok hydrated := by
  induction items generalizing stored hydrated with
  | nil =>
    cases hmap
    rw [length_eq_zero_iff.1 hlength.symm]
    rfl
  | cons item items ih =>
    cases stored with
    | nil => cases hlength
    | cons session stored =>
      simp only [mapM_cons, bind_eq_bind, bind_eq_some_iff, Option.pure_def, some.injEq] at hmap
      obtain ⟨entry, hentry, others, hothers, rfl⟩ := hmap
      obtain ⟨_, hsession, hexact⟩ := hitems 0 item rfl
      cases hsession
      have hfirst : hydrateStored adapter session = .ok entry := by
        unfold Item.hydrated at hentry
        split at hentry
        · rename_i task found hphase
          cases hentry
          exact hexact.staged task entry hphase
        · cases hentry
      have hrest := ih (Nat.succ.inj hlength)
        (fun index item hitem => hitems (index + 1) item hitem) hothers
      rw [mapM_cons, hfirst, hrest]
      rfl

variable {parts : WorkspaceSessionHydrationParts P C}

/-- A loop has no more frames than a session may have. -/
theorem TaskSound.few_frames (h : TaskSound stage adapter sessionId task)
    (hparts : task.parts = some parts) :
    parts.frames.length ≤ MAX_WORKSPACE_FRAMES_PER_SESSION := by
  unfold SessionTask.parts at hparts
  split at hparts
  · rename_i collections frames aiMessages waveform hcollections hframes hmessages hwaveform
    cases hparts
    apply (h.frames.reads hframes).taken_of (Nat.zero_le _)
    intro request place taken page taken' next accepted
    obtain ⟨-, _, -, -, -, -, hfew, -⟩ := takeFrames_ok.1 accepted
    exact hfew
  · cases hparts

/-! ## One event -/

variable {requestId : String} {snapshots : List (WorkspaceSessionSnapshot D)}
  {response : SessionsResponse D}

theorem takeSessions_serves {place : Nat} {taken taken' : List (WorkspaceSessionSnapshot D)}
    (hanswers : AnswersList snapshots stage.sessionPageSize place response.sessions
      response.nextOffset)
    (h : takeSessions stage requestId place taken response = .ok (taken', next)) :
    ∃ rows, taken' = taken ++ rows ∧
      paging.Serves (· ≤ snapshots.length) snapshots.drop place rows next := by
  obtain ⟨rows, stored, hrows, -, hnext, hserves⟩ := hanswers
  obtain ⟨-, page, hpage, -, hsessions, -, hgoes⟩ := takeSessions_ok.1 h
  cases hrows.symm.trans hpage
  rw [hnext] at hgoes
  rw [hgoes.next]
  exact ⟨_, hsessions, hserves⟩

theorem takeSessions_stored {place : Nat} {taken : List (WorkspaceSessionSnapshot D)}
    (hfew : snapshots.length ≤ MAX_WORKSPACE_SESSIONS) (hplace : place ≤ snapshots.length)
    (hall : taken ++ snapshots.drop place = snapshots)
    (hecho : Echoes stage requestId none response.envelope)
    (hanswers : AnswersList snapshots stage.sessionPageSize place response.sessions
      response.nextOffset) :
    ∃ accepted, takeSessions stage requestId place taken response = .ok accepted := by
  obtain ⟨rows, next, hrows, hfits, hnext, hserves⟩ := hanswers
  have hgoes : GoesOn place rows.length response.nextOffset next :=
    hnext ▸ Serves.goesOn hserves hplace (hfew.trans (by decide))
  have hlength : (taken ++ rows).length ≤ MAX_WORKSPACE_SESSIONS :=
    (Serves.length_le hserves hall).trans hfew
  exact ⟨(taken ++ rows, next), takeSessions_ok.2 ⟨hecho, rows, hrows, hfits, rfl, hlength, hgoes⟩⟩

/-- The list is as it is stored, behind an event. -/
theorem Exact.list_step (h : Exact lost adapter stored s)
    (haccepted : ¬lost → Accepted stage adapter stored) (hsteps : Steps stage adapter s e s')
    (hconsistent : Consistent stage stored s e) :
    Complete lost (· ≤ (stored.map (·.snapshot)).length) (stored.map (·.snapshot)).drop
      (stored.map (·.snapshot)) id s'.sessions := by
  cases hsteps with
  | idle => exact h.list
  | answered hitem hphase moves sessions next items marks outcome => exact sessions ▸ h.list
  | settled hitem hphase hparts hydrates =>
    rw [finish_sessions, takeNext_sessions]
    exact h.list
  | refused hitem hphase hparts hrefuses =>
    rw [settleWith_sessions]
    exact h.list
  | @listed response waiting =>
    obtain ⟨loop, hloop, hsessions, -⟩ := answerSessions_cases stage s response
    rw [hsessions, hloop]
    apply h.list.answer (fun hkept => (haccepted hkept).requests)
    intro requestId place taken hwaiting hknown hall
    obtain ⟨page, rfl, hecho, hanswers⟩ := hconsistent requestId place taken hwaiting
    refine ⟨page, rfl, fun _ _ hok => takeSessions_serves hanswers hok, fun hkept => ?_⟩
    apply takeSessions_stored _ hknown hall hecho hanswers
    rw [length_map]
    exact (haccepted hkept).few

/-- Each session of the list is as it is stored, behind an event. -/
theorem Exact.items_step (h : Exact lost adapter stored s) (hcoherent : Coherent stage adapter s)
    (haccepted : ¬lost → Accepted stage adapter stored) (hsteps : Steps stage adapter s e s')
    (hconsistent : Consistent stage stored s e) :
    ∀ (index : Nat) item, s'.items[index]? = some item →
      ∃ session, stored[index]? = some session ∧ ItemExact lost adapter session item := by
  have hlist := h.list_step haccepted hsteps hconsistent
  apply items_behind (fun index item => ItemSound stage adapter s.nextSequences item ∧
      ∃ session, stored[index]? = some session ∧ ItemExact lost adapter session item)
    (fun index item => ∃ session, stored[index]? = some session ∧
      ItemExact lost adapter session item) hcoherent.ordered hsteps
  · intro index item hitem
    exact ⟨hcoherent.items index item hitem, h.items index item hitem⟩
  · intro index item hitem
    exact hitem.2
  · intro response snapshots index snapshot _ hresult hsnapshot
    have hsnapshots : snapshots = stored.map (·.snapshot) := hlist.of_result hresult
    rw [hsnapshots, getElem?_map] at hsnapshot
    obtain ⟨session, hsession, rfl⟩ := map_eq_some_iff.1 hsnapshot
    exact ⟨⟨by simp, by simp⟩, session, hsession, rfl, by simp, by simp⟩
  · rintro index item item' ⟨-, session, hsession, hexact⟩ _ hstarts
    refine ⟨session, hsession, hstarts.snapshot.trans hexact.snapshot, ?_, ?_⟩
    · intro task hphase
      cases hstarts with
      | started hstart =>
        cases hphase
        exact taskExact_start (fun hkept => (haccepted hkept).requests) hstart
      | refused hstart => cases hphase
    · intro task hydrated hphase
      cases hstarts <;> cases hphase
  · rintro index item task task' hitem hphase ⟨hsound, session, hsession, hexact⟩ hmoves -
    refine ⟨session, hsession, hexact.snapshot, ?_, by simp⟩
    intro task'' hphase'
    cases hphase'
    apply (hexact.staging task hphase).moves (fun hkept => (haccepted hkept).requests) _
      (hsound.staging task hphase).1 hitem hphase hsession hconsistent hmoves
    intro hkept
    obtain ⟨hydrated, hhydrated⟩ := (haccepted hkept).readable hsession
    exact hydrateStored_readable hhydrated
  · rintro index item task parts hydrated hphase ⟨hsound, session, hsession, hexact⟩ hparts
      hhydrates
    refine ⟨session, hsession, hexact.snapshot, by simp, ?_⟩
    intro task' hydrated' hphase'
    cases hphase'
    have htask := (hsound.staging task hphase).1
    have hsame := (hexact.staging task hphase).parts htask hparts
    simp only [hydrateStored, bind_eq_ok, assertLimit_ok]
    refine ⟨(), ?_, ?_⟩
    · have hfew := htask.few_frames hparts
      rw [hsame] at hfew
      exact hfew
    · rw [← hexact.snapshot, ← hsame]
      exact hhydrates
  · rintro index item task - ⟨-, session, hsession, hexact⟩
    exact ⟨session, hsession, hexact.snapshot, by simp, by simp⟩

section

variable (hrequests : ∀ n, ∃ request, nextRequestId stage n = .ok request)
include hrequests

theorem startSession_failure {calls : Nat} (h : (startSession stage calls).1 = .ok task) :
    task.failure = none := by
  obtain ⟨request, a, b, c, rfl⟩ := startSession_ok h
  simp only [SessionTask.failure, ask_failure hrequests, none_or]
  rfl

/-- A worker that takes a session has it staged, and nothing fails. -/
theorem takeNext_kept (hkept : ∀ error, s.outcome ≠ some (.error error))
    (error : WorkspaceAdapterError) : (s.takeNext stage).outcome ≠ some (.error error) := by
  rcases takeNext_cases stage s with
    ⟨-, hsame⟩ | ⟨item, item', -, hstarts, -, -, -, -, houtcome⟩
  · rw [hsame]
    exact hkept error
  · cases hstarts with
    | @refused calls error hstart =>
      obtain ⟨request, hrequest⟩ := hrequests calls
      unfold startSession at hstart
      rw [hrequest] at hstart
      cases hstart
    | @started calls task hstart =>
      rcases houtcome with ⟨hrejected, -⟩ | ⟨task', hphase, houtcome⟩
      · cases hrejected
      · cases hphase
        rw [houtcome, startSession_failure hrequests hstart, map_none, or_none]
        exact hkept error

theorem startWorkers_kept {workers : Nat} (hkept : ∀ error, s.outcome ≠ some (.error error))
    (error : WorkspaceAdapterError) :
    (s.startWorkers stage workers).outcome ≠ some (.error error) := by
  induction workers generalizing s with
  | zero => exact hkept error
  | succ workers ih => exact ih (takeNext_kept hrequests hkept)

end

/-- What `finish` concludes from a list as it is stored is no failure. -/
theorem finish_kept (haccepted : Accepted stage adapter stored)
    (hsnapshots : s.items.map (·.snapshot) = stored.map (·.snapshot))
    (hitems : ∀ (index : Nat) item, s.items[index]? = some item →
      ∃ session, stored[index]? = some session ∧ ItemExact lost adapter session item)
    (hkept : ∀ error, s.outcome ≠ some (.error error)) (error : WorkspaceAdapterError) :
    (s.finish stage).outcome ≠ some (.error error) := by
  unfold State.finish
  split
  · exact hkept error
  · rename_i hydrated hmap
    have hlength := congrArg length hsnapshots
    rw [length_map, length_map] at hlength
    have hstored := hydrated_stored hlength hitems hmap
    obtain ⟨hydrated', hmap', staging, hconclude⟩ := haccepted.hydrated
    cases hstored.symm.trans hmap'
    rw [settleWith_outcome, hsnapshots, hconclude]
    cases houtcome : s.outcome with
    | none => simp
    | some outcome =>
      rw [getD_some, ← houtcome]
      exact hkept error

theorem Exact.kept_step (h : Exact lost adapter stored s) (hcoherent : Coherent stage adapter s)
    (haccepted : ¬lost → Accepted stage adapter stored) (hsteps : Steps stage adapter s e s')
    (hconsistent : Consistent stage stored s e) (hkept : ¬lost) (error : WorkspaceAdapterError) :
    s'.outcome ≠ some (.error error) := by
  have hlist := h.list_step haccepted hsteps hconsistent
  have hitems := h.items_step hcoherent haccepted hsteps hconsistent
  have hlisted := fun hsome => hcoherent.listed_step hsteps hsome
  have hopen := h.kept hkept
  have hready := haccepted hkept
  cases hsteps with
  | idle => exact hopen error
  | @answered _ _ index item task task' hitem hphase moves sessions next items marks outcome =>
    have hfound : s'.items[index]? = some { item with phase := .staging task' } := by
      rw [items, List.getElem?_set_self (List.getElem?_eq_some_iff.1 hitem).1]
    obtain ⟨session, -, hexact⟩ := hitems index _ hfound
    rw [outcome, (hexact.staging task' rfl).failure hkept, map_none, or_none]
    exact hopen error
  | @settled index item task parts hydrated hitem hphase hparts hydrates =>
    rw [finish_items] at hitems hlisted
    rw [finish_sessions] at hlist hlisted
    refine finish_kept hready ?_ hitems (takeNext_kept hready.requests hopen) error
    exact hlist.of_result (hlisted (takeNext_ne_nil stage hitem))
  | @refused index item task parts error' hitem hphase hparts hrefuses =>
    obtain ⟨session, hsession, hexact⟩ := h.items index item hitem
    obtain ⟨hydrated, hhydrated⟩ := hready.readable hsession
    have hsame := (hexact.staging task hphase).parts
      ((hcoherent.items index item hitem).staging task hphase).1 hparts
    simp only [hydrateStored, bind_eq_ok] at hhydrated
    obtain ⟨-, -, hhydrated⟩ := hhydrated
    rw [hexact.snapshot, hsame, hhydrated] at hrefuses
    cases hrefuses
  | @listed response waiting =>
    obtain ⟨loop, -, hsessions, -, hcases⟩ := answerSessions_cases stage s response
    rw [hsessions] at hlist
    rcases hcases with ⟨-, -, -, houtcome⟩ |
      ⟨snapshots, hresult, ⟨-, -, error', -, hids⟩ | ⟨calls, ids, -, hbegun⟩⟩
    · rw [houtcome, hlist.failure hkept, map_none, or_none]
      exact hopen error
    · have hsnapshots : snapshots = stored.map (·.snapshot) := hlist.of_result hresult
      obtain ⟨hydrated, -, staging, hconclude⟩ := hready.hydrated
      simp only [conclude, bind_eq_ok] at hconclude
      obtain ⟨ids, hok, -⟩ := hconclude
      rw [hsnapshots, hok] at hids
      cases hids
    · have hsnapshots : snapshots = stored.map (·.snapshot) := hlist.of_result hresult
      rw [hbegun] at hitems ⊢
      rw [finish_items] at hitems
      apply finish_kept hready _ hitems (startWorkers_kept hready.requests hopen)
      rw [startWorkers_snapshots, listed, List.map_map, ← hsnapshots]
      simp [Function.comp_def]

theorem Exact.step (h : Exact lost adapter stored s) (hcoherent : Coherent stage adapter s)
    (haccepted : ¬lost → Accepted stage adapter stored)
    (hconsistent : Consistent stage stored s e) :
    Exact lost adapter stored (hydration_staging.step stage adapter s e) := by
  have hsteps := steps stage adapter s e
  exact
    { list := h.list_step haccepted hsteps hconsistent
      items := h.items_step hcoherent haccepted hsteps hconsistent
      kept := h.kept_step hcoherent haccepted hsteps hconsistent }

theorem exact_start (haccepted : ¬lost → Accepted stage adapter stored) :
    Exact lost adapter stored (start stage) := by
  constructor
  · simp only [start, rejectWith_sessions]
    exact complete_ask (fun hkept => (haccepted hkept).requests) (Nat.zero_le _) rfl
  · intro index item hitem
    simp [start] at hitem
  · intro hkept error
    simp only [start, rejectWith_outcome]
    rw [ask_failure (haccepted hkept).requests]
    simp

/-- What a consistent server gets staged is what it has stored. -/
theorem Exact.fulfilled (h : Exact lost adapter stored s) (hcoherent : Coherent stage adapter s)
    {staging : WorkspaceHydrationStaging F K C} (hdone : s.outcome = some (.ok staging)) :
    stageStored stage adapter stored = .ok staging := by
  obtain ⟨hlisted, hydrated, hmap, hconclude⟩ := hcoherent.concluded staging hdone
  have hsnapshots : s.items.map (·.snapshot) = stored.map (·.snapshot) := h.list.of_result hlisted
  have hlength := congrArg length hsnapshots
  rw [length_map, length_map] at hlength
  have hfew := few_sessions hcoherent.list hlisted
  rw [length_map, hlength] at hfew
  rw [hsnapshots] at hconclude
  simp only [stageStored, bind_eq_ok, assertLimit_ok]
  exact ⟨(), hfew, hydrated, hydrated_stored hlength h.items hmap, hconclude⟩

/-! ## What any server gets staged -/

/-- A list with offsets, as it was read: each page answers its request, about this workspace at
this revision, and goes on behind its last row. -/
structure ListPages {ρ β : Type} (stage : Stage) (sessionId : Option String)
    (envelope : ρ → Envelope) (rows : ρ → List β) (nextOffset : ρ → Option JsNumber)
    (pages : List (Page String Nat ρ)) (all : List β) : Prop where
  follows : Follows (fun page => namedOffset (nextOffset page)) (some 0) pages none
  echoes : ∀ page ∈ pages, Echoes stage page.request sessionId (envelope page.answer)
  whole : ∀ page ∈ pages, ∀ next, namedOffset (nextOffset page.answer) = some next →
    page.place < next ∧ next = page.place + (rows page.answer).length
  collected : all = pages.flatMap fun page => rows page.answer

/-- The frames of a session, as they were read: they ascend, within a page and from each page to
the next. -/
structure FramePages (stage : Stage) (sessionId : String)
    (pages : List (Page String Nat FramesResponse)) (frames : List WorkspaceHydratedFrame) :
    Prop where
  follows : Follows (fun page => namedOffset page.nextSeq) (some 0) pages none
  echoes : ∀ page ∈ pages, Echoes stage page.request (some sessionId) page.answer.envelope
  forward : ∀ page ∈ pages, ∃ previous last,
    Ascends page.place previous (page.answer.frames.getD []) last ∧
      ∀ next, namedOffset page.answer.nextSeq = some next → last < next ∧ page.place < next
  ascends : ∃ last, Ascends 0 (-1) frames last
  collected : frames = pages.flatMap fun page => page.answer.frames.getD []

theorem listPages_of_reads {ρ β : Type} {sessionId : Option String} {envelope : ρ → Envelope}
    {rows : ρ → List β} {nextOffset : ρ → Option JsNumber} {ε α : Type}
    {accept : String → Nat → α → ρ → Except ε (α × Option Nat)} {init taken : α}
    (collected : α → List β) {pages : List (Page String Nat ρ)}
    (h : Reads accept 0 init pages taken none) (hinit : collected init = [])
    (haccept : ∀ {request place taken page taken' next},
      accept request place taken page = .ok (taken', next) →
        Echoes stage request sessionId (envelope page) ∧
          collected taken' = collected taken ++ rows page ∧
          GoesOn place (rows page).length (nextOffset page) next) :
    ListPages stage sessionId envelope rows nextOffset pages (collected taken) := by
  constructor
  · exact h.follows fun accepted => (haccept accepted).2.2.named
  · exact h.forall_pages fun accepted => (haccept accepted).1
  · apply h.forall_pages (P := fun page => ∀ next,
      namedOffset (nextOffset page.answer) = some next →
        page.place < next ∧ next = page.place + (rows page.answer).length)
    intro request place taken page taken' next accepted next' hnext
    obtain ⟨-, -, hgoes⟩ := haccept accepted
    rw [hgoes.named] at hnext
    subst hnext
    exact hgoes.forward
  · exact h.collects hinit fun accepted => (haccept accepted).2.1

theorem Ascends.mono {fromSeq fromSeq' : Nat} {previous last : Int}
    (h : Ascends fromSeq previous frames last) (hle : fromSeq' ≤ fromSeq) :
    Ascends fromSeq' previous frames last := by
  induction h with
  | nil => exact .nil
  | cons valid from_place behind ascends ih => exact .cons valid (hle.trans from_place) behind ih

theorem Ascends.append {fromSeq : Nat} {previous between last : Int}
    {rest : List WorkspaceHydratedFrame} (h : Ascends fromSeq previous frames between)
    (hrest : Ascends fromSeq between rest last) :
    Ascends fromSeq previous (frames ++ rest) last := by
  induction h with
  | nil => exact hrest
  | cons valid from_place behind ascends ih => exact .cons valid from_place behind (ih hrest)

variable {pages : List (Page String Nat FramesResponse)} {taken : FramesTaken}

theorem frames_ascend (h : Reads (takeFrames stage sessionId) 0 {} pages taken next) :
    Ascends 0 (-1) taken.frames taken.previousSeq := by
  induction h with
  | start => exact .nil
  | @page pages taken taken' request place next page before accepted ih =>
    obtain ⟨-, rows, -, -, hascends, hframes, -⟩ := takeFrames_ok.1 accepted
    rw [hframes]
    exact ih.append (hascends.mono (Nat.zero_le _))

theorem framePages_of_reads (h : Reads (takeFrames stage sessionId) 0 {} pages taken none) :
    FramePages stage sessionId pages taken.frames := by
  constructor
  · apply h.follows
    intro request place taken page taken' next accepted
    obtain ⟨-, _, -, -, -, -, -, hgoes⟩ := takeFrames_ok.1 accepted
    exact hgoes.named
  · exact h.forall_pages fun accepted => (takeFrames_ok.1 accepted).1
  · apply h.forall_pages (P := fun page => ∃ previous last,
      Ascends page.place previous (page.answer.frames.getD []) last ∧
        ∀ next, namedOffset page.answer.nextSeq = some next → last < next ∧ page.place < next)
    intro request place taken page taken' next accepted
    obtain ⟨-, rows, hrows, -, hascends, -, -, hgoes⟩ := takeFrames_ok.1 accepted
    refine ⟨taken.previousSeq, taken'.previousSeq, by rw [hrows]; exact hascends, ?_⟩
    intro next' hnext
    rw [hgoes.named] at hnext
    subst hnext
    obtain ⟨hsome, hbehind⟩ := hgoes.forward
    have hle := hascends.from_le hsome
    refine ⟨hbehind, ?_⟩
    show place < next'
    omega
  · exact ⟨_, frames_ascend h⟩
  · refine @Reads.collects _ _ _ WorkspaceHydratedFrame _ _ _ _ _ _ _ _ FramesTaken.frames
      (fun page => page.frames.getD []) h rfl ?_
    intro request place taken page taken' next accepted
    obtain ⟨-, rows, hrows, -, -, hframes, -⟩ := takeFrames_ok.1 accepted
    rw [hframes, hrows]
    rfl

section

variable {stringify : WorkspaceWaveformChannel C → String}

/-- The channels that stay are those of the pages, and none of them has changed. -/
structure ChannelsKept (stringify : WorkspaceWaveformChannel C → String)
    (seen : List (WorkspaceWaveformChannel C))
    (channels : OrderedMap JsNumber (WorkspaceWaveformChannel C)) : Prop where
  keyed : ∀ entry ∈ channels, entry.1 = mapKey entry.2.channelIndex ∧ entry.2 ∈ seen
  kept : ∀ channel ∈ seen, ∃ kept, channels.get (mapKey channel.channelIndex) = some kept ∧
    stringify kept = stringify channel

theorem ChannelsKept.set {seen : List (WorkspaceWaveformChannel C)}
    {channels : OrderedMap JsNumber (WorkspaceWaveformChannel C)}
    (h : ChannelsKept stringify seen channels) {channel : WorkspaceWaveformChannel C}
    (hsame : ∀ existing, channels.get (mapKey channel.channelIndex) = some existing →
      stringify existing = stringify channel) :
    ChannelsKept stringify (seen ++ [channel])
      (channels.set (mapKey channel.channelIndex) channel) := by
  constructor
  · intro entry hentry
    rcases mem_set hentry with rfl | hold
    · exact ⟨rfl, by simp⟩
    · exact ⟨(h.keyed entry hold).1, mem_append_left _ (h.keyed entry hold).2⟩
  · intro other hother
    by_cases hkey : mapKey other.channelIndex = mapKey channel.channelIndex
    · refine ⟨channel, by rw [hkey, get_set_self], ?_⟩
      rcases mem_append.1 hother with hold | hnew
      · obtain ⟨kept, hkept, hstring⟩ := h.kept other hold
        rw [← hstring, ← hsame kept (hkey ▸ hkept)]
      · rw [mem_singleton.1 hnew]
    · rcases mem_append.1 hother with hold | hnew
      · obtain ⟨kept, hkept, hstring⟩ := h.kept other hold
        exact ⟨kept, by rw [get_set_of_ne _ _ hkey, hkept], hstring⟩
      · exact absurd (by rw [mem_singleton.1 hnew]) hkey

theorem ChannelsKept.takeChannels {seen rows : List (WorkspaceWaveformChannel C)}
    {channels channels' : OrderedMap JsNumber (WorkspaceWaveformChannel C)}
    (h : ChannelsKept stringify seen channels)
    (htake : takeChannels stringify channels rows = .ok channels') :
    ChannelsKept stringify (seen ++ rows) channels' := by
  induction rows generalizing seen channels with
  | nil =>
    cases htake
    rw [append_nil]
    exact h
  | cons channel rest ih =>
    simp only [hydration_staging.takeChannels, bind_eq_ok, validUnless_ok] at htake
    obtain ⟨-, hsame, hrest⟩ := htake
    rw [← singleton_append, ← append_assoc]
    refine ih (h.set ?_) hrest
    intro existing hexisting
    rw [hexisting] at hsame
    simpa using hsame

theorem channels_kept {pages : List (Page String Nat (WaveformResponse C))}
    {taken : WaveformTaken C}
    (h : Reads (takeWaveform stage stringify sessionId) 0 {} pages taken next) :
    ChannelsKept stringify (pages.flatMap fun page => page.answer.channels.getD [])
      taken.channels := by
  induction h with
  | start => exact ⟨by simp, by simp⟩
  | page before accepted ih =>
    obtain ⟨-, channels, _, hchannels, -, -, htake, -⟩ := takeWaveform_ok.1 accepted
    rw [flatMap_append, flatMap_singleton, hchannels]
    exact ih.takeChannels htake

end

/-- The rows of a session, as they were read. -/
structure SessionRead (stage : Stage) (adapter : SessionAdapter D F P K C) (sessionId : String)
    (task : SessionTask P C) (parts : WorkspaceSessionHydrationParts P C) : Prop where
  collections : ∃ request page, task.collections.pages = [⟨request, (), page⟩] ∧
    Echoes stage request (some sessionId) page.envelope ∧ parts.collections = page.collections
  frames : FramePages stage sessionId task.frames.pages parts.frames
  aiMessages : ListPages stage (some sessionId) AiMessagesResponse.envelope
    (fun page => page.messages.getD []) AiMessagesResponse.nextOffset task.aiMessages.pages
    parts.aiMessages
  samples : ListPages stage (some sessionId) WaveformResponse.envelope
    (fun page => page.samples.getD []) WaveformResponse.nextOffset task.waveform.pages
    parts.waveformSamples
  channels : ∃ channels, parts.waveformChannels = channels.map Prod.snd ∧
    ChannelsKept adapter.stringify
      (task.waveform.pages.flatMap fun page => page.answer.channels.getD []) channels

/-- The collections come in one answer. -/
theorem collections_read {pages : List (Page String Unit (CollectionsResponse P))} {collections : P}
    (h : Reads (takeCollections stage sessionId) () none pages (some collections) none) :
    ∃ request page, pages = [⟨request, (), page⟩] ∧
      Echoes stage request (some sessionId) page.envelope ∧ collections = page.collections := by
  cases h with
  | @page pages taken _ request place _ page before accepted =>
    obtain ⟨hecho, hsame, -⟩ := takeCollections_ok.1 accepted
    cases before with
    | start => exact ⟨request, page, rfl, hecho, Option.some.inj hsame⟩
    | page before accepted => cases (takeCollections_ok.1 accepted).2.2

theorem TaskSound.read (h : TaskSound stage adapter sessionId task)
    (hparts : task.parts = some parts) :
    SessionRead stage adapter sessionId task parts := by
  unfold SessionTask.parts at hparts
  split at hparts
  · rename_i collections frames aiMessages waveform hcollections hframes hmessages hwaveform
    cases hparts
    constructor
    · exact collections_read (h.collections.reads hcollections)
    · exact framePages_of_reads (h.frames.reads hframes)
    · apply listPages_of_reads id (h.aiMessages.reads hmessages) rfl
      intro request place taken page taken' next accepted
      obtain ⟨hecho, rows, hrows, -, hmessages, -, hgoes⟩ := takeAiMessages_ok.1 accepted
      rw [hrows]
      exact ⟨hecho, hmessages, hgoes⟩
    · apply listPages_of_reads WaveformTaken.samples (h.waveform.reads hwaveform) rfl
      intro request place taken page taken' next accepted
      obtain ⟨hecho, _, rows, -, hrows, -, -, hsamples, hgoes⟩ := takeWaveform_ok.1 accepted
      rw [hrows]
      exact ⟨hecho, hsamples, hgoes⟩
    · exact ⟨waveform.channels, rfl, channels_kept (h.waveform.reads hwaveform)⟩
  · cases hparts

end bbcom.hydration_staging
