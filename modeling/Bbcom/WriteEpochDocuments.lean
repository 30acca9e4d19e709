-- What a header shows of a document. The renderer and the store apply a mutation to it in the
-- same way, each by its own code, and the transport leaves what the mutation does.
import Bbcom.WriteEpochStore

open bbcom.js bbcom.json bbcom.contracts bbcom.workspace

namespace bbcom.write_epoch

open List Option Database Engine

/-! ## What a header shows of a document -/

/-- The name, the active session and the set of the sessions. -/
@[ext] structure Document where
  name : String
  activeSessionId : Option String
  sessions : Finset String

/-- What a mutation does to it. -/
def Document.apply {D V : Type} (d : Document) : MutationBody D V → Document
  | .setMetadata payload => { d with name := payload.name.getD d.name }
  | .setActiveSession sessionId => { d with activeSessionId := sessionId }
  | .upsertSession sessionId _ => { d with sessions := insert sessionId d.sessions }
  | .removeSession sessionId =>
    { d with
      sessions := d.sessions.erase sessionId
      activeSessionId := if d.activeSessionId = some sessionId then none else d.activeSessionId }
  | _ => d

def Document.applyAll {D V : Type} (d : Document) (bodies : List (MutationBody D V)) : Document :=
  bodies.foldl Document.apply d

/-- The document as the renderer has it. -/
def clientDocument (active : MutableActiveWorkspace) : Document :=
  ⟨active.name, active.activeSessionId, active.sessionIds.toFinset⟩

/-- The document as the store has it. -/
def storedDocument (db : Database) : Document :=
  ⟨db.workspaceMeta.name, db.workspaceMeta.activeSessionId,
    (db.liveSessions.map SessionRow.id).toFinset⟩

/-- The document that a header shows. -/
def headerDocument (header : WorkspaceDocumentHeader) : Document :=
  ⟨header.name, header.activeSessionId, header.sessionIds.toFinset⟩

/-! ## The renderer applies a mutation -/

variable {body : MutationBody JsValue JsNumber}

theorem applyCommittedDocumentMutation_document {active document : MutableActiveWorkspace}
    (h : applyCommittedDocumentMutation active body = some document) :
    clientDocument document = (clientDocument active).apply body := by
  cases body with
  | setMetadata payload =>
    obtain ⟨name, layout, updatedAtMs⟩ := payload
    cases name <;> cases layout <;>
      simp only [applyCommittedDocumentMutation, Option.pure_def, some.injEq,
        bind_eq_bind, bind_eq_some_iff] at h
    · rw [← h]
      rfl
    · obtain ⟨_, _, rfl⟩ := h
      rfl
    · rw [← h]
      rfl
    · obtain ⟨_, _, rfl⟩ := h
      rfl
  | upsertSession sessionId payload =>
    simp only [applyCommittedDocumentMutation, Option.pure_def, some.injEq] at h
    rw [← h]
    by_cases hmem : sessionId ∈ active.sessionIds
    · simp [clientDocument, Document.apply, hmem]
    · ext
      · simp [clientDocument, Document.apply, hmem]
      · simp [clientDocument, Document.apply, hmem]
      · simp [clientDocument, Document.apply, hmem]
  | removeSession sessionId =>
    simp only [applyCommittedDocumentMutation, Option.pure_def, some.injEq] at h
    rw [← h]
    simp only [clientDocument, Document.apply, Document.mk.injEq, true_and]
    refine ⟨rfl, ?_⟩
    ext id
    simp [and_comm]
  | setActiveSession sessionId =>
    cases h
    rfl
  | _ =>
    cases h
    rfl

variable {mutations : List SequencedMutation}

theorem applyCommittedDocumentMutations_document {active document : MutableActiveWorkspace}
    (h : applyCommittedDocumentMutations active mutations = some document) :
    clientDocument document = (clientDocument active).applyAll (mutations.map (·.body)) := by
  induction mutations generalizing active with
  | nil =>
    cases h
    rfl
  | cons mutation mutations ih =>
    simp only [applyCommittedDocumentMutations, bind_eq_bind, bind_eq_some_iff] at h
    obtain ⟨next, hnext, h⟩ := h
    rw [ih h, applyCommittedDocumentMutation_document hnext]
    rfl

/-! ## The store applies a mutation -/

theorem setMetadata_document {db db' : Database} {payload : WorkspaceMetadataPayload Json}
    (h : setMetadata db payload = .ok db') :
    storedDocument db' = { storedDocument db with
      name := payload.name.getD (storedDocument db).name } := by
  obtain ⟨named, hname, h⟩ := bind_eq_ok.1 h
  obtain ⟨laidOut, hlayout, h⟩ := bind_eq_ok.1 h
  obtain ⟨dated, hdated, h⟩ := bind_eq_ok.1 h
  cases h
  have hnamed : named.name = payload.name.getD db.workspaceMeta.name ∧
      named.activeSessionId = db.workspaceMeta.activeSessionId := by
    cases hpayload : payload.name with
    | none =>
      rw [hpayload] at hname
      cases hname
      exact ⟨rfl, rfl⟩
    | some name =>
      rw [hpayload] at hname
      obtain ⟨_, _, hname⟩ := bind_eq_ok.1 hname
      obtain ⟨_, _, hname⟩ := bind_eq_ok.1 hname
      cases hname
      exact ⟨rfl, rfl⟩
  have hlaidOut : laidOut.name = named.name ∧ laidOut.activeSessionId = named.activeSessionId := by
    rw [setLayout_ok hlayout]
    exact ⟨rfl, rfl⟩
  have hkept : dated.name = laidOut.name ∧ dated.activeSessionId = laidOut.activeSessionId := by
    rw [setUpdatedAt_ok hdated]
    exact ⟨rfl, rfl⟩
  simp only [storedDocument, Document.mk.injEq]
  exact ⟨by rw [hkept.1, hlaidOut.1, hnamed.1], by rw [hkept.2, hlaidOut.2, hnamed.2], rfl⟩

theorem mem_live {db : Database} {id : String} :
    id ∈ (db.liveSessions.map SessionRow.id).toFinset ↔
      ∃ s ∈ db.sessions, s.id = id ∧ s.undoPending = false := by
  simp only [liveSessions, List.mem_toFinset, List.mem_map, mem_filter, Bool.not_eq_true']
  constructor
  · rintro ⟨s, ⟨hmem, hlive⟩, hid⟩
    exact ⟨s, hmem, hid, hlive⟩
  · rintro ⟨s, hmem, hid, hlive⟩
    exact ⟨s, ⟨hmem, hlive⟩, hid⟩

/-- An upserted session is live, and so is what was live before. -/
theorem upsertSessionRow_live (db : Database) {row : SessionRow} (hrow : row.undoPending = false) :
    (({ db with sessions := upsertSessionRow db row }).liveSessions.map SessionRow.id).toFinset =
      insert row.id (db.liveSessions.map SessionRow.id).toFinset := by
  ext id
  rw [mem_live, Finset.mem_insert, mem_live]
  simp only [upsertSessionRow]
  split_ifs with hany
  · constructor
    · rintro ⟨s, hmem, rfl, hlive⟩
      obtain ⟨old, hold, rfl⟩ := mem_map.1 hmem
      by_cases hid : old.id = row.id
      · exact .inl (by rw [if_pos hid])
      · rw [if_neg hid] at hlive ⊢
        exact .inr ⟨old, hold, rfl, hlive⟩
    · rintro (rfl | ⟨s, hmem, rfl, hlive⟩)
      · obtain ⟨old, hold, hid⟩ := any_eq_true.1 hany
        refine ⟨row, mem_map.2 ⟨old, hold, ?_⟩, rfl, hrow⟩
        rw [if_pos (by simpa using hid)]
      · by_cases hid : s.id = row.id
        · exact ⟨row, mem_map.2 ⟨s, hmem, by rw [if_pos hid]⟩, hid.symm, hrow⟩
        · exact ⟨s, mem_map.2 ⟨s, hmem, by rw [if_neg hid]⟩, rfl, hlive⟩
  · constructor
    · rintro ⟨s, hmem, rfl, hlive⟩
      rcases mem_append.1 hmem with hold | hnew
      · exact .inr ⟨s, hold, rfl, hlive⟩
      · rw [mem_singleton.1 hnew]
        exact .inl rfl
    · rintro (rfl | ⟨s, hmem, rfl, hlive⟩)
      · exact ⟨row, mem_append_right _ (mem_singleton.2 rfl), rfl, hrow⟩
      · exact ⟨s, mem_append_left _ hmem, rfl, hlive⟩

/-- A removed session is archived: it is live no more, and an archived one purged. -/
theorem removeSession_document {db db' : Database} (hs : SessionsSound db) {sessionId : String}
    (h : removeSession db sessionId = .ok db') :
    storedDocument db' = (storedDocument db).apply
      (.removeSession sessionId : MutationBody Json F64) := by
  obtain ⟨-, he⟩ := removeSession_ok h
  have hactive : db'.workspaceMeta.activeSessionId =
      if db.workspaceMeta.activeSessionId = some sessionId then none
      else db.workspaceMeta.activeSessionId := by
    rw [he]
    cases hid : db.workspaceMeta.activeSessionId with
    | none => simp [clearActive, deleteSessions, hid]
    | some id =>
      obtain ⟨s, hmem, rfl, hlive⟩ := hasLiveSession_iff.1 (hs.active_live id hid)
      have hkept : ∀ t ∈ db.sessions, t.undoPending = true → t.id ≠ sessionId → t.id ≠ s.id := by
        intro t ht hpending _ hsame
        have heq : t = s := inj_on_of_nodup_map hs.ids_distinct ht hmem hsame
        rw [heq, hlive] at hpending
        cases hpending
      by_cases hsame : s.id = sessionId
      · simp [clearActive, deleteSessions, hid, hsame]
      · simp only [clearActive, deleteSessions, hid, some.injEq, hsame, if_false]
        rw [filter_eq_some_iff, filter_eq_some_iff]
        refine ⟨⟨rfl, ?_⟩, by simpa using hsame⟩
        simpa using hkept
  have hname : db'.workspaceMeta.name = db.workspaceMeta.name := by
    rw [he]
    rfl
  simp only [storedDocument, Document.apply, hname, hactive, Document.mk.injEq, true_and]
  refine ⟨rfl, ?_⟩
  ext id
  rw [mem_live, Finset.mem_erase, mem_live, he]
  simp only [deleteSessions]
  constructor
  · rintro ⟨s, hmem, rfl, hlive⟩
    obtain ⟨old, hold, rfl⟩ := mem_map.1 hmem
    have hmem := (mem_filter.1 hold).1
    by_cases hmark : (old.id = sessionId && !old.undoPending) = true
    · rw [if_pos hmark] at hlive
      cases hlive
    · rw [if_neg hmark] at hlive ⊢
      refine ⟨fun hid => hmark ?_, old, hmem, rfl, hlive⟩
      simp [hid, hlive]
  · rintro ⟨hne, s, hmem, rfl, hlive⟩
    refine ⟨s, mem_map.2 ⟨s, mem_filter.2 ⟨hmem, by simp [hlive]⟩, ?_⟩, rfl, hlive⟩
    rw [if_neg (by simp [hne])]

theorem storedDocument_congr {db db' : Database}
    (hname : db'.workspaceMeta.name = db.workspaceMeta.name)
    (hsessions : db'.sessions = db.sessions)
    (hactive : db'.workspaceMeta.activeSessionId = db.workspaceMeta.activeSessionId) :
    storedDocument db' = storedDocument db := by
  unfold storedDocument liveSessions
  rw [hname, hsessions, hactive]

theorem applyMutation_document {db db' : Database} (hs : SessionsSound db)
    {body : MutationBody Json F64} (h : applyMutation db body = .ok db') :
    storedDocument db' = (storedDocument db).apply body := by
  have hsame := applyMutation_untouched h
  cases body with
  | setMetadata payload => exact setMetadata_document h
  | setActiveSession sessionId =>
    obtain ⟨_, rfl⟩ := setActiveSession_ok h
    rfl
  | upsertSession sessionId payload =>
    obtain ⟨row, rfl, hrow, he⟩ := upsertSession_ok h
    rw [he]
    have hlive := upsertSessionRow_live db hrow
    exact congrArg (Document.mk _ _) hlive
  | removeSession sessionId => exact removeSession_document hs h
  | _ =>
    exact storedDocument_congr (hsame.metadata rfl).1 (hsame.sessions rfl).1
      (hsame.sessions rfl).2

theorem applyMutationList_document {mutations : List WorkspaceMutation} {db db' : Database}
    (hs : SessionsSound db) (h : applyMutationList db mutations = .ok db') :
    storedDocument db' = (storedDocument db).applyAll (mutations.map (·.body)) ∧
      SessionsSound db' := by
  induction mutations generalizing db with
  | nil =>
    cases h
    exact ⟨rfl, hs⟩
  | cons mutation mutations ih =>
    obtain ⟨next, hnext, h⟩ := bind_eq_ok.1 h
    obtain ⟨hdocument, hsound⟩ := ih (applyMutation_sessions hs hnext) h
    rw [applyMutation_document hs hnext] at hdocument
    exact ⟨hdocument, hsound⟩

/-! ## The transport leaves what a mutation does -/

theorem Document.apply_deserialize (ipc : Ipc) (d : Document) {sent : MutationBody Json F64}
    (h : ipc.deserializeBody body = some sent) : d.apply sent = d.apply body := by
  cases body with
  | appendFrames sessionId payload =>
    obtain ⟨frames, _, rfl⟩ := map_eq_some_iff.1 h
    rfl
  | replaceCapture sessionId payload =>
    obtain ⟨frames, _, rfl⟩ := map_eq_some_iff.1 h
    rfl
  | _ =>
    cases h
    rfl

theorem Document.applyAll_deserialize (ipc : Ipc) {sent : List WorkspaceMutation}
    (h : mutations.mapM ipc.deserializeMutation = some sent) (d : Document) :
    d.applyAll (sent.map (·.body)) = d.applyAll (mutations.map (·.body)) := by
  induction mutations generalizing sent d with
  | nil =>
    cases h
    rfl
  | cons mutation mutations ih =>
    rw [mapM_cons] at h
    simp only [bind_eq_bind, bind_eq_some_iff, Option.pure_def, some.injEq] at h
    obtain ⟨first, hfirst, rest, hrest, rfl⟩ := h
    unfold Ipc.deserializeMutation at hfirst
    split at hfirst
    · obtain ⟨body, hbody, rfl⟩ := map_eq_some_iff.1 hfirst
      have hstep := d.apply_deserialize ipc hbody
      have htail := ih hrest (d.apply mutation.body)
      simp only [Document.applyAll, map_cons, foldl_cons] at htail ⊢
      rw [hstep, htail]
    · cases hfirst

end bbcom.write_epoch
