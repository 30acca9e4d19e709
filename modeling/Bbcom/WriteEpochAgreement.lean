-- The document of the renderer and the document of the store agree. The invariant has, for each
-- revision of a workspace, the document that it had there; every step of the renderer and of
-- the native side keeps it, as long as no answer brings a revision without its mutations.
import Bbcom.WriteEpochDocuments
import Bbcom.WriteEpochOrder

open bbcom.js bbcom.json bbcom.contracts bbcom.workspace

namespace bbcom.write_epoch

open List Option Function Engine World

/-! ## The invariant of the world -/

/-- A batch has led from the document at its base revision to the one at the next. -/
structure Advances (history : List Document) (request : ApplyWorkspaceBatchRequest)
    (committed : Nat) : Prop where
  next : committed = request.baseRevision.toNat + 1
  documents : ∃ d, history[request.baseRevision.toNat]? = some d ∧
    history[committed]? = some (d.applyAll (request.mutations.map (·.body)))

/-- `history` has the documents of each workspace, one for each revision. Everything stored or
in flight agrees with it, and so does the document of the renderer. -/
structure Agreed (native : Native) (history : String → List Document) (w : World) : Prop where
  order : InOrder w.engine
  absent : ∀ id, w.library id = none → history id = []
  stored : ∀ id service, w.library id = some service →
    service.db.workspaceMeta.workspaceId = id ∧ SessionsSound service.db ∧
      (history id).length = service.db.workspaceMeta.revision + 1 ∧
      (history id)[service.db.workspaceMeta.revision]? = some (storedDocument service.db)
  ledger : ∀ id service, w.library id = some service → ∀ row ∈ service.db.committedBatches,
    ∃ request ∈ w.handled, row.requestHash = native.hash request ∧
      Advances (history id) request row.committedRevision
  headers : ∀ answer ∈ w.headers,
    (history answer.1.workspaceId)[answer.1.revision]? = some (headerDocument answer.1)
  calls : ∀ n ticket base, (w.engine.epochs n).running = some (.applying ticket base) →
    ∃ i, w.waiting n = some i ∧ w.calls[i]? = some (.apply (ticket.request base))
  answers : ∀ i response, (i, Reply.applied response) ∈ w.answers →
    ∃ request sent, w.calls[i]? = some (.apply request) ∧
      native.ipc.deserialize request = some sent ∧
      Advances (history sent.workspaceId) sent response.committedRevision
  client : ∀ active, w.engine.active = some active →
    (history active.workspaceId)[active.revision]? = some (clientDocument active)
  bases : ∀ n ticket base active, w.engine.writeEpoch = some n →
    (w.engine.epochs n).running = some (.applying ticket base) →
    w.engine.active = some active → active.revision = base

theorem getElem?_of_grown {α : Type} {l l' : List α} (h : l <+: l') {i : Nat} {a : α}
    (hi : l[i]? = some a) : l'[i]? = some a := by
  obtain ⟨rest, rfl⟩ := h
  rw [List.getElem?_append_left (List.getElem?_eq_some_iff.1 hi).1]
  exact hi

theorem Advances.grow {history history' : List Document} (h : history <+: history')
    {request : ApplyWorkspaceBatchRequest} {committed : Nat}
    (hadvances : Advances history request committed) : Advances history' request committed := by
  obtain ⟨d, hbase, hnext⟩ := hadvances.documents
  exact ⟨hadvances.next, d, getElem?_of_grown h hbase, getElem?_of_grown h hnext⟩

variable {native : Native} {history : String → List Document} {w : World}

/-- A step of the engine alone, with what it has to show. -/
theorem Agreed.engine (h : Agreed native history w) {e : Engine} (he : InOrder e)
    {calls : List PortCall} {waiting : Nat → Option Nat} (hgrow : w.calls <+: calls)
    (hcalls : ∀ n ticket base, (e.epochs n).running = some (.applying ticket base) →
      ∃ i, waiting n = some i ∧ calls[i]? = some (.apply (ticket.request base)))
    (hclient : ∀ active, e.active = some active →
      (history active.workspaceId)[active.revision]? = some (clientDocument active))
    (hbases : ∀ n ticket base active, e.writeEpoch = some n →
      (e.epochs n).running = some (.applying ticket base) → e.active = some active →
      active.revision = base) :
    Agreed native history { w with engine := e, calls, waiting } where
  order := he
  absent := h.absent
  stored := h.stored
  ledger := h.ledger
  headers := h.headers
  calls := hcalls
  answers i response hmem := by
    obtain ⟨request, sent, hcall, hsent, hadvances⟩ := h.answers i response hmem
    exact ⟨request, sent, getElem?_of_grown hgrow hcall, hsent, hadvances⟩
  client := hclient
  bases := hbases

/-- The same document but for its health is the same document. -/
theorem Agreed.same_client (h : Agreed native history w) {r : Engine}
    (hr : SameButHealth w.engine r) (active : MutableActiveWorkspace)
    (hactive : r.active = some active) :
    (history active.workspaceId)[active.revision]? = some (clientDocument active) := by
  obtain ⟨health, heq⟩ := hr
  rw [hactive] at heq
  obtain ⟨before, hbefore, rfl⟩ := map_eq_some_iff.1 heq.symm
  exact h.client before hbefore

theorem SameButHealth.revision {e r : Engine} (hr : SameButHealth e r)
    {active : MutableActiveWorkspace} (hactive : r.active = some active) :
    ∃ before, e.active = some before ∧ before.revision = active.revision := by
  obtain ⟨health, heq⟩ := hr
  rw [hactive] at heq
  obtain ⟨before, hbefore, rfl⟩ := map_eq_some_iff.1 heq.symm
  exact ⟨before, hbefore, rfl⟩

theorem Agreed.submitted (h : Agreed native history w) {r : Engine}
    (hs : Submitted w.engine r) : Agreed native history { w with engine := r } := by
  have hr : InOrder r := inOrder_submitted h.order hs
  cases hs with
  | refused same => exact same ▸ h
  | batch n ticket active health current before writable epoch workspace sequences epochs epoch_kept
      number after open_after notes =>
    obtain ⟨pending, hepochs⟩ := epochs
    have hrunning : ∀ k, (r.epochs k).running = (w.engine.epochs k).running := by
      intro k
      rw [hepochs]
      by_cases hk : k = n
      · subst hk
        rw [update_self]
      · rw [update_of_ne hk]
    have hsame : SameButHealth w.engine r := ⟨health, by rw [after, before]; rfl⟩
    refine h.engine hr (prefix_refl _) ?_ (h.same_client hsame) ?_
    · intro k ticket base hwaits
      rw [hrunning] at hwaits
      exact h.calls k ticket base hwaits
    · intro k ticket base active hk hwaits hactive
      rw [hrunning] at hwaits
      rw [epoch_kept] at hk
      obtain ⟨old, hold, hrevision⟩ := hsame.revision hactive
      rw [← hrevision]
      exact h.bases k ticket base old hk hwaits hold
  | flush n current same =>
    subst same
    have hrunning : ∀ k, ((w.engine.setEpoch n { w.engine.epochs n with
        tail := (w.engine.epochs n).tail ++ [.flush] }).epochs k).running =
          (w.engine.epochs k).running := by
      intro k
      by_cases hk : k = n
      · subst hk
        rw [setEpoch_same]
      · rw [setEpoch_other _ hk]
    refine h.engine hr (prefix_refl _) ?_ h.client ?_
    · intro k ticket base hwaits
      rw [hrunning] at hwaits
      exact h.calls k ticket base hwaits
    · intro k ticket base active hk hwaits hactive
      rw [hrunning] at hwaits
      exact h.bases k ticket base active hk hwaits hactive

theorem Agreed.removed (h : Agreed native history w) :
    Agreed native history { w with engine := w.engine.removeActive } := by
  refine h.engine (inOrder_removeActive h.order) (prefix_refl _) ?_ ?_ ?_
  · intro n ticket base hwaits
    obtain ⟨aborted, hbook⟩ := abort_epoch { w.engine with active := none } n
    change (({ w.engine with active := none } : Engine).abort.epochs n).running = _ at hwaits
    rw [hbook] at hwaits
    exact h.calls n ticket base hwaits
  · intro active hactive
    have hnone : w.engine.removeActive.active = none := (abort_same _).2.2.1
    rw [hnone] at hactive
    cases hactive
  · rintro n ticket base active ⟨⟩

/-- The header is as the checks of the renderer leave it: its name and its ids have no white
space around them. -/
def Plain (header : WorkspaceDocumentHeader) : Prop :=
  trim header.workspaceId = header.workspaceId ∧ trim header.name = header.name ∧
    (∀ id ∈ header.sessionIds, trim id = id) ∧ ∀ id ∈ header.activeSessionId, trim id = id

variable {id : String} {header : WorkspaceDocumentHeader} {request : WriteRequest}
  {service service' : WorkspaceService}

theorem validateOpaqueId_some {value : String} (h : validateOpaqueId value = some id) :
    id = trim value := by
  unfold validateOpaqueId at h
  simp only at h
  split at h
  · exact (some.inj h).symm
  · cases h

theorem validateProjectName_some {value name : String} (h : validateProjectName value = some name) :
    name = trim value := by
  unfold validateProjectName at h
  simp only at h
  split at h
  · cases h
  · exact (some.inj h).symm

theorem mapM_validateOpaqueId {values ids : List String}
    (h : values.mapM validateOpaqueId = some ids) (htrim : ∀ id ∈ values, trim id = id) :
    ids = values := by
  induction values generalizing ids with
  | nil =>
    cases h
    rfl
  | cons value values ih =>
    rw [mapM_cons] at h
    simp only [bind_eq_bind, bind_eq_some_iff, Option.pure_def, some.injEq] at h
    obtain ⟨first, hfirst, rest, hrest, rfl⟩ := h
    rw [validateOpaqueId_some hfirst, htrim value mem_cons_self,
      ih hrest fun id hid => htrim id (mem_cons_of_mem _ hid)]

theorem validateRevision_nat {n revision : Nat}
    (h : validateRevision (.finite n) = some revision) : revision = n := by
  simp only [validateRevision, integerBetween] at h
  split at h
  · rw [← some.inj h]
    simp
  · cases h

/-- What the renderer makes of a plain header is its document. -/
theorem sanitizeHeader_document {ipc : Ipc} {active : MutableActiveWorkspace}
    (hplain : Plain header) (h : sanitizeHeader (ipc.header header) = some active) :
    active.workspaceId = header.workspaceId ∧ active.revision = header.revision ∧
      clientDocument active = headerDocument header := by
  obtain ⟨hid, hname, hsessions, hactive⟩ := hplain
  simp only [sanitizeHeader, bind_eq_bind, bind_eq_some_iff] at h
  obtain ⟨workspaceId, hworkspace, name, hvalid, revision, hrevision, sessionIds, hids, h⟩ := h
  by_cases hdistinct : sessionIds.Nodup
  swap
  · simp [hdistinct] at h
  · simp only [hdistinct, not_true_eq_false, if_false, Option.pure_def, bind_eq_some_iff] at h
    obtain ⟨activeSessionId, hsession, h⟩ := h
    by_cases hforeign : activeSessionId.any (!sessionIds.contains ·) = true
    · rw [if_pos hforeign] at h
      cases h
    · rw [if_neg hforeign] at h
      simp only [bind_eq_some_iff, some.injEq] at h
      obtain ⟨layout, _, rfl⟩ := h
      have hsame : activeSessionId = header.activeSessionId := by
        change header.activeSessionId.mapM validateOpaqueId = some activeSessionId at hsession
        cases hid : header.activeSessionId with
        | none =>
          rw [hid] at hsession
          cases hsession
          rfl
        | some id =>
          rw [hid] at hsession
          cases hopaque : validateOpaqueId id with
          | none => simp [Option.mapM, hopaque] at hsession
          | some checked =>
            have hchecked := validateOpaqueId_some hopaque
            rw [hactive id (by rw [hid]; rfl)] at hchecked
            simp only [Option.mapM, hopaque, Option.map_eq_map, map_some, some.injEq] at hsession
            rw [← hsession, hchecked]
      refine ⟨?_, validateRevision_nat hrevision, ?_⟩
      · rw [validateOpaqueId_some hworkspace]
        exact hid
      · have hnamed : name = header.name := by
          rw [validateProjectName_some hvalid]
          exact hname
        have hlist : sessionIds = header.sessionIds := mapM_validateOpaqueId hids hsessions
        simp only [clientDocument, headerDocument, hnamed, hlist, hsame]

/-! ## The steps of the renderer -/

theorem running_beginEpoch {e : Engine} {workspaceId : String} {k : Nat} {point : AwaitPoint}
    (h : ((e.beginEpoch workspaceId).epochs k).running = some point) :
    (e.epochs k).running = some point := by
  unfold beginEpoch at h
  simp only at h
  by_cases hk : k = e.abort.writeEpochNumber + 1
  · subst hk
    rw [setEpoch_same] at h
    cases h
  · rw [setEpoch_other _ hk] at h
    obtain ⟨aborted, hbook⟩ := abort_epoch e k
    rwa [hbook] at h

theorem Agreed.activated (h : Agreed native history w) {header : MutableActiveWorkspace}
    (hdocument : (history header.workspaceId)[header.revision]? = some (clientDocument header)) :
    Agreed native history { w with engine := step w.engine (.activate header) } := by
  have hr := inOrder_step h.order (.activate header)
  refine h.engine hr (prefix_refl _) ?_ ?_ ?_
  · intro n ticket base hwaits
    unfold step activateHeader at hwaits
    simp only at hwaits
    split_ifs at hwaits
    · exact h.calls n ticket base hwaits
    · exact h.calls n ticket base (running_beginEpoch hwaits)
  · intro active hactive
    unfold step activateHeader at hactive
    simp only at hactive
    split_ifs at hactive
    · exact h.client active hactive
    · cases hactive
      exact hdocument
  · intro n ticket base active hcurrent hwaits hactive
    unfold step activateHeader at hcurrent hwaits hactive
    simp only at hcurrent hwaits hactive
    split_ifs at hcurrent hwaits hactive
    · exact h.bases n ticket base active hcurrent hwaits hactive
    · -- the new epoch has made no call yet
      have hwaits' := running_beginEpoch hwaits
      have hn : n = w.engine.writeEpochNumber + 1 := by
        have hsome : some (w.engine.abort.writeEpochNumber + 1) = some n := hcurrent
        rw [(abort_same w.engine).2.1, some.injEq] at hsome
        exact hsome.symm
      rw [h.order.unused n (by omega)] at hwaits'
      cases hwaits'

theorem Agreed.started (h : Agreed native history w) (n : Nat) :
    Agreed native history (w.start n) := by
  have hr := inOrder_step h.order (.start n)
  have hs := start_spec h.order.sound n
  unfold World.start
  simp only
  set r := step w.engine (.start n) with hdef
  change Started n w.engine r at hs
  cases hs with
  | idle same =>
    rw [same]
    split
    · rename_i hnone hsome
      rw [hnone] at hsome
      cases hsome
    · exact h
  | dropped task tail next free f rest quiet notes document closed =>
    rw [quiet, free]
    refine h.engine hr (prefix_refl _) ?_ (h.same_client document) ?_
    · intro k ticket base hwaits
      by_cases hk : k = n
      · rw [hk, quiet] at hwaits
        cases hwaits
      · rw [f.others k hk] at hwaits
        exact h.calls k ticket base hwaits
    · intro k ticket base active hcurrent hwaits hactive
      by_cases hk : k = n
      · rw [hk, quiet] at hwaits
        cases hwaits
      · rw [f.others k hk] at hwaits
        rw [f.epoch_kept] at hcurrent
        obtain ⟨old, hold, hrevision⟩ := document.revision hactive
        rw [← hrevision]
        exact h.bases k ticket base old hcurrent hwaits hold
  | sent ticket tail active next free f current before writable document rest waits notes =>
    have hsame : SameButHealth w.engine r := ⟨.saving, by rw [document, before]; rfl⟩
    rw [free, waits]
    simp only
    refine h.engine hr (prefix_append _ _) ?_ (h.same_client hsame) ?_
    · intro k other base hwaits
      by_cases hk : k = n
      · subst hk
        rw [waits] at hwaits
        cases hwaits
        exact ⟨w.calls.length, update_self .., List.getElem?_concat_length⟩
      · rw [f.others k hk] at hwaits
        obtain ⟨i, hwaiting, hcall⟩ := h.calls k other base hwaits
        exact ⟨i, by rw [update_of_ne hk, hwaiting], getElem?_of_grown (prefix_append _ _) hcall⟩
    · intro k other base after hcurrent hwaits hafter
      rw [f.epoch_kept, current, some.injEq] at hcurrent
      subst hcurrent
      rw [waits] at hwaits
      rw [document] at hafter
      cases hwaits
      cases hafter
      rfl
  | flushSent tail active next free f current before writable document rest waits notes =>
    have hsame : SameButHealth w.engine r := ⟨.saving, by rw [document, before]; rfl⟩
    rw [free, waits]
    simp only
    refine h.engine hr (prefix_append _ _) ?_ (h.same_client hsame) ?_
    · intro k other base hwaits
      by_cases hk : k = n
      · subst hk
        rw [waits] at hwaits
        cases hwaits
      · rw [f.others k hk] at hwaits
        obtain ⟨i, hwaiting, hcall⟩ := h.calls k other base hwaits
        exact ⟨i, by rw [update_of_ne hk, hwaiting], getElem?_of_grown (prefix_append _ _) hcall⟩
    · intro k other base after hcurrent hwaits hafter
      rw [f.epoch_kept, current, some.injEq] at hcurrent
      subst hcurrent
      rw [waits] at hwaits
      cases hwaits

/-- The end of a call, with what its answer makes of the document. -/
theorem Agreed.settled (h : Agreed native history w) {n : Nat} {answer : Answer}
    (happlied : ∀ ticket base response active document,
      (w.engine.epochs n).running = some (.applying ticket base) →
      answer = .applied (.ok response) → w.engine.writeEpoch = some n →
      w.engine.active = some active →
      committedDocument active ticket base response = some document →
      (history document.workspaceId)[document.revision]? = some (clientDocument document))
    (hflushed : ∀ target response active document,
      answer = .flushed (.ok response) → w.engine.writeEpoch = some n →
      w.engine.active = some active →
      applyFlushResponse active target (w.engine.epochs n).pending response =
        some document →
      (history document.workspaceId)[document.revision]? = some (clientDocument document)) :
    Agreed native history { w with engine := step w.engine (.settle n answer) } := by
  have hr := inOrder_step h.order (.settle n answer)
  have hs := settle_spec h.order.sound n answer
  set r := step w.engine (.settle n answer) with hdef
  change Settled n w.engine answer r at hs
  -- no epoch waits that has not waited before
  have hcalls : Frame n w.engine r → (r.epochs n).running = none →
      ∀ k ticket base, (r.epochs k).running = some (.applying ticket base) →
        k ≠ n ∧ (w.engine.epochs k).running = some (.applying ticket base) := by
    intro f quiet k ticket base hwaits
    by_cases hk : k = n
    · rw [hk, quiet] at hwaits
      cases hwaits
    · rw [f.others k hk] at hwaits
      exact ⟨hk, hwaits⟩
  have hstays : Frame n w.engine r → (r.epochs n).running = none →
      (∀ active, r.active = some active →
        (history active.workspaceId)[active.revision]? = some (clientDocument active)) →
      Agreed native history { w with engine := r } := by
    intro f quiet hclient
    refine h.engine hr (prefix_refl _) ?_ hclient ?_
    · intro k ticket base hwaits
      exact h.calls k ticket base (hcalls f quiet k ticket base hwaits).2
    · intro k ticket base active hk hwaits hactive
      obtain ⟨hkn, hbefore⟩ := hcalls f quiet k ticket base hwaits
      rw [f.epoch_kept] at hk
      have hother : w.engine.writeEpoch ≠ some n := by
        rw [hk, Ne, some.injEq]
        exact hkn
      rw [f.document hother] at hactive
      exact h.bases k ticket base active hk hbefore hactive
  cases hs with
  | idle same => exact same ▸ h
  | ended point busy f rest quiet notes document =>
    exact hstays f quiet (h.same_client document)
  | applied ticket base response active document health busy answered current before committed after
      f rest quiet notes =>
    refine hstays f quiet ?_
    intro other hother
    rw [after, some.injEq] at hother
    rw [← hother]
    exact happlied ticket base response active document busy answered current before committed
  | flushed target response active document busy answered current before taken after f rest quiet
      notes =>
    refine hstays f quiet ?_
    intro other hother
    rw [after, some.injEq] at hother
    rw [← hother]
    exact hflushed target response active document answered current before taken

/-- What the answers of the run have to be like: a header that begins an epoch is plain, and the
flush that the current epoch takes in reports no revision above that of its document. -/
def World.Meets (native : Native) (w : World) : WorldEvent → Prop
  | .activate answer =>
    ∀ sent ∈ w.headers[answer]?, ∀ active ∈ sanitizeHeader (native.ipc.header sent.1),
      (w.engine.activateHeader { active with saveHealth := sent.2 }).isSome → Plain sent.1
  | .answer epoch index => ∀ call revision saveHealth active,
    w.answers[index]? = some (call, .flushed revision saveHealth) → w.waiting epoch = some call →
    w.engine.writeEpoch = some epoch → w.engine.active = some active → revision ≤ active.revision
  | _ => True

theorem deserialize_some {ipc : Ipc} {sent : ApplyWorkspaceBatchRequest}
    (h : ipc.deserialize request = some sent) :
    sent.workspaceId = request.workspaceId ∧ sent.baseRevision.toNat = request.baseRevision ∧
      ∀ d : Document, d.applyAll (sent.mutations.map (·.body)) =
        d.applyAll (request.mutations.map (·.body)) := by
  unfold Ipc.deserialize at h
  split at h
  · rename_i hbase
    obtain ⟨mutations, hmutations, rfl⟩ := map_eq_some_iff.1 h
    refine ⟨rfl, ?_, fun d => d.applyAll_deserialize ipc hmutations⟩
    exact UInt64.toNat_ofNat_of_lt hbase
  · cases h

theorem Agreed.answered (h : Agreed native history w) {n index : Nat}
    (hmeets : w.Meets native (.answer n index)) : Agreed native history (w.answer n index) := by
  unfold answer
  cases hanswer : w.answers[index]? with
  | none => exact h
  | some found =>
    obtain ⟨call, reply⟩ := found
    simp only
    split_ifs with hwaiting
    · refine h.settled ?_ ?_
      · intro ticket base response active document hrunning hreply hcurrent hactive hcommitted
        obtain ⟨hrevision, -, -, applied, happlied, rfl⟩ := committedDocument_some hcommitted
        cases reply with
        | flushed revision saveHealth => cases hreply
        | applied answered =>
          cases hreply
          obtain ⟨i, hi, hcall⟩ := h.calls n ticket base hrunning
          rw [hwaiting, some.injEq] at hi
          subst hi
          obtain ⟨request, sent, hcall', hsent, hadvances⟩ :=
            h.answers call answered (mem_of_getElem? hanswer)
          rw [hcall, some.injEq, PortCall.apply.injEq] at hcall'
          subst hcall'
          obtain ⟨hworkspace, hbase, heffect⟩ := deserialize_some hsent
          obtain ⟨d, hd, hnext⟩ := hadvances.documents
          have hrev : base + 1 = answered.committedRevision := validateRevision_nat hrevision
          have hid : active.workspaceId = ticket.workspaceId := by
            obtain ⟨hepoch, hticket⟩ := h.order.sound.awaits n ticket base hrunning
            obtain ⟨-, current, hsome, hsame⟩ := h.order.sound.current n hcurrent
            rw [hactive, some.injEq] at hsome
            rw [hsome, hsame, hticket]
          have hbefore : d = clientDocument active := by
            have hclient := h.client active hactive
            rw [h.bases n ticket base active hcurrent hrunning hactive, hid] at hclient
            rw [hworkspace, hbase] at hd
            exact some.inj (hd.symm.trans hclient)
          have hafter : clientDocument { applied with revision := base + 1 } =
              d.applyAll (sent.mutations.map (·.body)) := by
            rw [heffect, hbefore]
            have happlied := applyCommittedDocumentMutations_document happlied
            exact happlied
          have hsame : applied.workspaceId = sent.workspaceId := by
            rw [applyCommittedDocumentMutations_workspaceId happlied, hid, hworkspace]
            rfl
          simp only [hsame, hrev] at hafter ⊢
          rw [hnext, ← hafter]
      · intro target response active document hreply hcurrent hactive htaken
        cases reply with
        | applied answered => cases hreply
        | flushed revision saveHealth =>
          cases hreply
          obtain ⟨taken, health, hrevision, -, hreached, rfl⟩ := applyFlushResponse_some htaken
          have hbound := hmeets call revision saveHealth active hanswer hwaiting hcurrent hactive
          have htakes : taken = active.revision := by
            rw [validateRevision_nat hrevision] at hreached ⊢
            exact Nat.le_antisymm hbound hreached
          simp only [htakes]
          exact h.client active hactive
    · exact h

theorem Agreed.failed (h : Agreed native history w) (n : Nat) (error : PortError) :
    Agreed native history (w.fail n error) := by
  unfold fail
  split
  · refine h.settled ?_ ?_
    · rintro ticket base response active document hrunning ⟨⟩
    · rintro target response active document ⟨⟩
  · refine h.settled ?_ ?_
    · rintro ticket base response active document hrunning ⟨⟩
    · rintro target response active document ⟨⟩
  · exact h

/-! ## The steps of the native side -/

theorem readHeader_ok' {fromStr : List Char → Option Json} {db : Database}
    (h : readHeader fromStr db = .ok header) :
    header.workspaceId = db.workspaceMeta.workspaceId ∧
      header.revision = db.workspaceMeta.revision ∧ headerDocument header = storedDocument db := by
  unfold readHeader at h
  simp only at h
  split at h
  · cases h
  · split at h
    · cases h
    · cases h
      refine ⟨rfl, rfl, ?_⟩
      simp only [headerDocument, storedDocument, Document.mk.injEq, true_and]
      ext id
      rw [List.mem_toFinset, List.mem_toFinset, List.mem_map, List.mem_map]
      simp only [mem_mergeSort]

/-- Another state of a workspace takes the place of the one that the library has. -/
theorem Agreed.store (h : Agreed native history w) {id : String} {service : WorkspaceService}
    {documents : List Document} {handled : List ApplyWorkspaceBatchRequest}
    (hgrow : history id <+: documents) (hhandled : ∀ request ∈ w.handled, request ∈ handled)
    (hid : service.db.workspaceMeta.workspaceId = id) (hsessions : SessionsSound service.db)
    (hlength : documents.length = service.db.workspaceMeta.revision + 1)
    (hstored : documents[service.db.workspaceMeta.revision]? = some (storedDocument service.db))
    (hrows : ∀ row ∈ service.db.committedBatches, ∃ request ∈ handled,
      row.requestHash = native.hash request ∧ Advances documents request row.committedRevision) :
    Agreed native (update history id documents)
      { w with library := update w.library id (some service), handled } := by
  have hstarts : ∀ other, history other <+: update history id documents other := by
    intro other
    by_cases ho : other = id
    · subst ho
      rw [update_self]
      exact hgrow
    · rw [update_of_ne ho]
  refine ⟨h.order, ?_, ?_, ?_, ?_, h.calls, ?_, ?_, h.bases⟩
  · intro other hnone
    by_cases ho : other = id
    · subst ho
      simp only [update_self] at hnone
      cases hnone
    · simp only [update_of_ne ho] at hnone ⊢
      exact h.absent other hnone
  · intro other found hfound
    by_cases ho : other = id
    · subst ho
      simp only [update_self, some.injEq] at hfound ⊢
      subst hfound
      exact ⟨hid, hsessions, hlength, hstored⟩
    · simp only [update_of_ne ho] at hfound ⊢
      exact h.stored other found hfound
  · intro other found hfound row hrow
    by_cases ho : other = id
    · subst ho
      simp only [update_self, some.injEq] at hfound ⊢
      subst hfound
      exact hrows row hrow
    · simp only [update_of_ne ho] at hfound ⊢
      obtain ⟨request, hmem, hhash, hadvances⟩ := h.ledger other found hfound row hrow
      exact ⟨request, hhandled request hmem, hhash, hadvances⟩
  · exact fun answer hanswer => getElem?_of_grown (hstarts _) (h.headers answer hanswer)
  · intro i response hmem
    obtain ⟨request, sent, hcall, hsent, hadvances⟩ := h.answers i response hmem
    exact ⟨request, sent, hcall, hsent, hadvances.grow (hstarts _)⟩
  · exact fun active hactive => getElem?_of_grown (hstarts _) (h.client active hactive)

theorem ledgerAfter_subset (rows : List CommittedBatchRow) (row : CommittedBatchRow) :
    ∀ r ∈ ledgerAfter rows row, r ∈ rows ∨ r = row := by
  intro r hr
  unfold ledgerAfter at hr
  split at hr
  · simpa using mem_of_mem_drop hr
  · simpa using hr

section

variable (h : Agreed native history w)
include h

/-- A commit adds one document to the history, and that is the one its mutations lead to. -/
theorem Agreed.commits (hfound : w.library id = some service) {request : ApplyWorkspaceBatchRequest}
    (hcommits : Commits native.hash service.db request service'.db) :
    ∃ documents, Advances documents request (service.db.workspaceMeta.revision + 1) ∧
      history id <+: documents ∧
      Agreed native (update history id documents)
        { w with
          library := update w.library id (some service')
          handled := w.handled ++ [request] } := by
  obtain ⟨hid, hsessions, hlength, hstored⟩ := h.stored id service hfound
  obtain ⟨applied, now, happlied, hdb⟩ := hcommits.applied
  obtain ⟨hdocument, hsound⟩ := applyMutationList_document hsessions (applyMutations_ok happlied).1
  have hsame := applyMutationList_sameLedger (applyMutations_ok happlied).1
  have hdocument' : storedDocument service'.db =
      (storedDocument service.db).applyAll (request.mutations.map (·.body)) := by
    rw [hdb]
    exact hdocument
  set documents := history id ++ [storedDocument service'.db] with hdocuments
  have hgrow : history id <+: documents := prefix_append _ _
  have hnew : documents[service.db.workspaceMeta.revision + 1]? =
      some (storedDocument service'.db) := by
    rw [hdocuments, ← hlength]
    exact List.getElem?_concat_length
  have hadvances : Advances documents request (service.db.workspaceMeta.revision + 1) := by
    refine ⟨by rw [hcommits.base_revision], storedDocument service.db, ?_, ?_⟩
    · rw [hcommits.base_revision]
      exact getElem?_of_grown hgrow hstored
    · rw [hnew, hdocument']
  refine ⟨documents, hadvances, hgrow, ?_⟩
  refine h.store hgrow (fun other hother => mem_append_left _ hother) ?_ ?_ ?_ ?_ ?_
  · rw [hdb]
    exact hsame.workspace_id.trans hid
  · rw [hdb]
    exact hsound.keep rfl rfl
  · rw [hcommits.revision, hdocuments, length_append, hlength]
    rfl
  · rw [hcommits.revision]
    exact hnew
  · intro row hrow
    rw [hdb] at hrow
    rcases ledgerAfter_subset _ _ row hrow with hold | rfl
    · obtain ⟨other, hmem, hhash, hother⟩ := h.ledger id service hfound row hold
      exact ⟨other, mem_append_left _ hmem, hhash, hother.grow hgrow⟩
    · exact ⟨request, mem_append_right _ (mem_singleton.2 rfl), rfl, hadvances⟩

/-- An answer that has advanced the history may be in flight. -/
theorem Agreed.reply {call : Nat} {sent : ApplyWorkspaceBatchRequest}
    (hcall : w.calls[call]? = some (.apply request))
    (hsent : native.ipc.deserialize request = some sent) {response : ApplyWorkspaceBatchResponse}
    (hadvances : Advances (history sent.workspaceId) sent response.committedRevision) :
    Agreed native history { w with answers := w.answers ++ [(call, .applied response)] } := by
  refine { h with answers := ?_ }
  intro i other hmem
  rcases mem_append.1 hmem with hold | hnew
  · exact h.answers i other hold
  · obtain ⟨rfl, hreply⟩ := Prod.mk.inj (mem_singleton.1 hnew)
    rw [Reply.applied.inj hreply]
    exact ⟨request, sent, hcall, hsent, hadvances⟩

theorem Agreed.flushReply (call revision : Nat) (saveHealth : WorkspaceSaveHealth) :
    Agreed native history
      { w with answers := w.answers ++ [(call, .flushed revision saveHealth)] } := by
  refine { h with answers := ?_ }
  intro i other hmem
  rcases mem_append.1 hmem with hold | hnew
  · exact h.answers i other hold
  · obtain ⟨-, hreply⟩ := Prod.mk.inj (mem_singleton.1 hnew)
    cases hreply

/-- A workspace whose document and ledger stay as they are. -/
theorem Agreed.restore (hfound : w.library id = some service) (hdb : service'.db = service.db)
    {handled : List ApplyWorkspaceBatchRequest}
    (hhandled : ∀ request ∈ w.handled, request ∈ handled) :
    Agreed native history
      { w with library := update w.library id (some service'), handled } := by
  obtain ⟨hid, hsessions, hlength, hstored⟩ := h.stored id service hfound
  have hstore := @Agreed.store native history w h id service' (history id) handled
    (prefix_refl _) hhandled (hdb ▸ hid) (hdb ▸ hsessions) (hdb ▸ hlength) (hdb ▸ hstored) ?_
  · rwa [update_eq_self] at hstore
  · intro row hrow
    rw [hdb] at hrow
    obtain ⟨request, hmem, hhash, hadvances⟩ := h.ledger id service hfound row hrow
    exact ⟨request, hhandled request hmem, hhash, hadvances⟩

theorem Agreed.handledBatch {call : Nat} {sent : ApplyWorkspaceBatchRequest}
    (hcall : w.calls[call]? = some (.apply request))
    (hsent : native.ipc.deserialize request = some sent)
    (hfound : w.library sent.workspaceId = some service)
    (hfree : CollisionFree native.hash (w.handled ++ [sent]))
    (result : Result ApplyWorkspaceBatchResponse) (service' : WorkspaceService) :
    CallEnds native.hash service sent result service' →
    ∃ history', Agreed native history'
      { w with
        library := update w.library sent.workspaceId (some service')
        handled := w.handled ++ [sent]
        answers := match result with
          | .ok response => w.answers ++ [(call, .applied response)]
          | .error _ => w.answers } := by
  intro hends
  have hmore : ∀ other ∈ w.handled, other ∈ w.handled ++ [sent] := fun other hother =>
    mem_append_left _ hother
  cases hends with
  | refused error => exact ⟨history, h.restore hfound rfl hmore⟩
  | known row found same =>
    -- the ledger has the row of a batch with this hash, and so of this batch
    obtain ⟨first, hmem, hhash, hadvances⟩ :=
      h.ledger _ service hfound row (List.mem_of_find?_eq_some found)
    have hsame : first = sent :=
      hfree first (hmore first hmem) sent (mem_append_right _ (mem_singleton.2 rfl))
        (hhash.symm.trans same)
    subst hsame
    exact ⟨history, (h.restore hfound rfl hmore).reply hcall hsent hadvances⟩
  | committed _ mode commits =>
    obtain ⟨documents, hadvances, hgrow, hnext⟩ := h.commits hfound commits
    refine ⟨_, hnext.reply hcall hsent ?_⟩
    rw [update_self]
    exact hadvances

theorem Agreed.handled' (call : Nat) (env : Surroundings)
    (hfree : CollisionFree native.hash (w.handle native call env).handled) :
    ∃ history', Agreed native history' (w.handle native call env) := by
  unfold handle at hfree ⊢
  cases hcall : w.calls[call]? with
  | none => exact ⟨history, h⟩
  | some port =>
    cases port with
    | apply request =>
      simp only [hcall] at hfree ⊢
      cases hsent : native.ipc.deserialize request with
      | none => exact ⟨history, h⟩
      | some sent =>
        simp only [hsent] at hfree ⊢
        by_cases hopened : w.opened = some sent.workspaceId
        swap
        · rw [if_pos hopened]
          exact ⟨history, h⟩
        · rw [if_neg (not_not.2 hopened)] at hfree ⊢
          cases hfound : w.library sent.workspaceId with
          | none => exact ⟨history, h⟩
          | some service =>
            simp only [hfound] at hfree ⊢
            exact h.handledBatch hcall hsent hfound hfree _ _ (applyBatch_ends _ env service sent)
    | flush workspaceId target =>
      simp only
      by_cases hopened : w.opened = some workspaceId
      swap
      · rw [if_pos hopened]
        exact ⟨history, h⟩
      · rw [if_neg (not_not.2 hopened)]
        cases hfound : w.library workspaceId with
        | none => exact ⟨history, h⟩
        | some service =>
          have hdb : (flushService native.fromStr env service target).2.db = service.db := by
            unfold flushService
            split
            · rfl
            · split_ifs <;> rfl
          have hnext := h.restore hfound hdb fun _ hmem => hmem
          simp only
          split
          · exact ⟨history, hnext.flushReply _ _ _⟩
          · exact ⟨history, hnext⟩

/-- The header that an opened workspace sends back is one of its documents. -/
theorem Agreed.sent (hfound : w.library id = some service)
    (hheader : readHeader native.fromStr service.db = .ok header) (saveHealth : WorkspaceSaveHealth)
    (opened : Option String) :
    Agreed native history { w with opened, headers := w.headers ++ [(header, saveHealth)] } := by
  refine { h with headers := ?_ }
  intro answer hmem
  rcases mem_append.1 hmem with hold | hnew
  · exact h.headers answer hold
  · obtain ⟨hid, _, _, hstored⟩ := h.stored id service hfound
    obtain ⟨hworkspace, hrevision, hdocument⟩ := readHeader_ok' hheader
    rw [mem_singleton.1 hnew]
    simp only
    rw [hworkspace, hrevision, hdocument, hid]
    exact hstored

/-- A workspace that the library has, as it is opened. -/
theorem Agreed.openService (hfound : w.library id = some service) (hdb : service'.db = service.db) :
    Agreed native history (w.openService native id service') := by
  unfold World.openService
  cases hheader : readHeader native.fromStr service'.db with
  | error error => exact h
  | ok header =>
    have hnext := h.restore hfound hdb fun _ hmem => hmem
    exact hnext.sent (update_self ..) hheader service'.saveHealth (some id)

/-- A new workspace has one document, the one that it was made with. -/
theorem Agreed.create (request : CreateWorkspaceRequest) :
    ∃ history', Agreed native history' (w.create native request) := by
  unfold World.create
  cases hnone : w.library request.workspaceId with
  | some service => exact ⟨history, h⟩
  | none =>
    cases hcreate : createWorkspace request with
    | error error => exact ⟨history, h⟩
    | ok service =>
      simp only
      unfold World.openService
      cases hheader : readHeader native.fromStr service.db with
      | error error => exact ⟨history, h⟩
      | ok header =>
        obtain ⟨createdAtMs, hdb, _⟩ := createWorkspace_ok hcreate
        have hnext := @Agreed.store native history w h request.workspaceId service
          [storedDocument service.db] w.handled (by rw [h.absent _ hnone]; exact nil_prefix)
          (fun _ hmem => hmem) (by rw [hdb]) (createWorkspace_sound hcreate).sessions
          (by rw [hdb]; rfl) (by rw [hdb]; rfl) (by rw [hdb]; intro row hrow; cases hrow)
        refine ⟨_, hnext.sent (update_self ..) hheader service.saveHealth
          (some request.workspaceId)⟩

theorem Agreed.opened (id : String) : Agreed native history (w.open_ native id) := by
  unfold open_
  cases hfound : w.library id with
  | none => exact h
  | some service =>
    refine h.openService hfound ?_
    rfl

theorem Agreed.activate {answer : Nat} (hmeets : w.Meets native (.activate answer)) :
    Agreed native history (w.activate native answer) := by
  unfold World.activate
  cases hanswer : w.headers[answer]? with
  | none => exact h
  | some found =>
    obtain ⟨header, saveHealth⟩ := found
    simp only
    cases hactive : sanitizeHeader (native.ipc.header header) with
    | none => exact h
    | some active =>
      by_cases hbegins : (w.engine.activateHeader { active with saveHealth }).isSome
      swap
      · -- a header that goes back is refused
        rw [Bool.not_eq_true, isSome_eq_false_iff, isNone_iff_eq_none] at hbegins
        simpa only [write_epoch.step, hbegins, getD_none] using h
      have hplain := hmeets _ (mem_def.2 hanswer) active (mem_def.2 hactive) hbegins
      obtain ⟨hid, hrevision, hdocument⟩ := sanitizeHeader_document hplain hactive
      refine h.activated ?_
      have hsent := h.headers _ (mem_of_getElem? hanswer)
      rw [← hid, ← hrevision, ← hdocument] at hsent
      exact hsent

end

/-! ## Runs -/

theorem openService_handled (w : World) (id : String) (service : WorkspaceService) :
    (w.openService native id service).handled = w.handled := by
  unfold openService
  split <;> rfl

/-- The batches that reached a workspace are never forgotten. -/
theorem handled_step (w : World) (event : WorldEvent) :
    w.handled <+: (w.step native event).handled := by
  have hsame : ∀ w' : World, w'.handled = w.handled → w.handled <+: w'.handled := by
    intro w' heq
    rw [heq]
  cases event with
  | create request =>
    apply hsame
    simp only [World.step, World.create]
    split
    · exact openService_handled ..
    · rfl
  | open_ workspaceId =>
    apply hsame
    simp only [World.step, World.open_]
    split
    · exact openService_handled ..
    · rfl
  | activate answer =>
    apply hsame
    simp only [World.step, World.activate]
    split
    · split <;> rfl
    · rfl
  | remove => exact hsame _ rfl
  | commitBatch commands batchId => exact hsame _ rfl
  | flush => exact hsame _ rfl
  | start epoch =>
    apply hsame
    simp only [World.step, World.start]
    split <;> rfl
  | handle call env =>
    simp only [World.step, World.handle]
    split
    · split
      · exact prefix_refl _
      · split_ifs
        · exact prefix_refl _
        · split
          · exact prefix_refl _
          · exact prefix_append _ _
    · split_ifs
      · exact prefix_refl _
      · split <;> exact prefix_refl _
    · exact prefix_refl _
  | answer epoch answer =>
    apply hsame
    simp only [World.step, World.answer]
    split
    · split_ifs <;> rfl
    · rfl
  | fail epoch error =>
    apply hsame
    simp only [World.step, World.fail]
    split <;> rfl

theorem Agreed.step (h : Agreed native history w) (event : WorldEvent)
    (hmeets : w.Meets native event)
    (hfree : CollisionFree native.hash (w.step native event).handled) :
    ∃ history', Agreed native history' (w.step native event) := by
  cases event with
  | create request => exact h.create request
  | open_ workspaceId => exact ⟨history, h.opened workspaceId⟩
  | activate answer => exact ⟨history, h.activate hmeets⟩
  | remove => exact ⟨history, h.removed⟩
  | commitBatch commands batchId =>
    exact ⟨history, h.submitted (commitBatch_spec _ commands batchId)⟩
  | flush => exact ⟨history, h.submitted (flush_spec _)⟩
  | start epoch => exact ⟨history, h.started epoch⟩
  | handle call env => exact h.handled' call env hfree
  | answer epoch answer => exact ⟨history, h.answered hmeets⟩
  | fail epoch error => exact ⟨history, h.failed epoch error⟩

end bbcom.write_epoch
