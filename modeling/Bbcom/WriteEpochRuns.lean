-- Runs of the write epochs among calls, answers and lost answers. A flush may report a revision
-- above the one that the renderer has, and the renderer takes it over without the mutations that
-- led there; where no flush does, and no header has white space to trim, the two sides agree.
import Bbcom.WriteEpochAgreement

open bbcom.contracts bbcom.workspace

namespace bbcom.write_epoch

open Option Engine

variable {native : Native} {history : String → List Document} {w : World}

/-! ## What the two sides owe each other -/

/-- The renderer and the store are at one revision only with one document. -/
def World.SameAtOneRevision (native : Native) (w : World) : Prop :=
  ∀ active service header, w.engine.active = some active →
    w.library active.workspaceId = some service →
    readHeader native.fromStr service.db = .ok header → active.revision = header.revision →
    active.name = header.name ∧ active.activeSessionId = header.activeSessionId ∧
      active.sessionIds.toFinset = header.sessionIds.toFinset

/-- Where the document of an epoch comes to another revision, that is the next one, and the
mutations of the batch that the epoch waited for have been applied. -/
def World.AppliesWhatItAdopts (w w' : World) : Prop :=
  ∀ n active after, w.engine.writeEpoch = some n → w'.engine.writeEpoch = some n →
    w.engine.active = some active → w'.engine.active = some after →
    after.revision ≠ active.revision →
    ∃ ticket applied, (w.engine.epochs n).running = some (.applying ticket active.revision) ∧
      applyCommittedDocumentMutations active ticket.mutations = some applied ∧
      after.revision = active.revision + 1 ∧ clientDocument after = clientDocument applied

/-- Every step of the run meets the condition on answers. -/
def RunMeets (native : Native) : World → List WorldEvent → Prop
  | _, [] => True
  | w, event :: events => w.Meets native event ∧ RunMeets native (w.step native event) events

instance (header : WorkspaceDocumentHeader) : Decidable (Plain header) := by
  unfold Plain
  infer_instance

def Reply.flushedRevision : Reply → Option Nat
  | .applied _ => none
  | .flushed revision _ => some revision

instance (w : World) : (event : WorldEvent) → Decidable (w.Meets native event)
  | .activate answer => inferInstanceAs (Decidable (∀ sent ∈ w.headers[answer]?,
    ∀ active ∈ sanitizeHeader (native.ipc.header sent.1),
      (w.engine.activateHeader { active with saveHealth := sent.2 }).isSome → Plain sent.1))
  | .answer epoch index =>
    decidable_of_iff (∀ a ∈ w.answers[index]?, ∀ active ∈ w.engine.active,
        w.waiting epoch = some a.1 → w.engine.writeEpoch = some epoch →
        ∀ revision ∈ a.2.flushedRevision, revision ≤ active.revision) (by
      constructor
      · exact fun h call revision saveHealth active hfound hwaiting hcurrent hactive =>
          h (call, .flushed revision saveHealth) hfound active hactive hwaiting hcurrent
            revision rfl
      · intro h a ha active hactive hwaiting hcurrent revision hrevision
        obtain ⟨call, reply⟩ := a
        cases reply with
        | applied response => cases hrevision
        | flushed reported saveHealth =>
          cases hrevision
          exact h call revision saveHealth active ha hwaiting hcurrent hactive)
  | .create _ | .open_ _ | .remove | .commitBatch _ _ | .flush | .start _ | .handle _ _
  | .fail _ _ => .isTrue trivial

instance (native : Native) : (w : World) → (events : List WorldEvent) →
    Decidable (RunMeets native w events)
  | _, [] => .isTrue trivial
  | w, event :: events =>
    have := instDecidableRunMeets native (w.step native event) events
    inferInstanceAs (Decidable (_ ∧ _))

theorem runMeets_append {before after : List WorldEvent} :
    RunMeets native w (before ++ after) ↔
      RunMeets native w before ∧ RunMeets native (runs.run (World.step native) w before) after := by
  induction before generalizing w with
  | nil => simp [RunMeets]
  | cons event before ih => simp only [List.cons_append, RunMeets, ih, runs.run_cons, and_assoc]

/-! ## One step -/

/-- A settled call is the only step of an epoch that brings another revision. -/
theorem settled_revision {n k : Nat} {e r : Engine} {answer : Answer} (h : Settled n e answer r)
    {active after : MutableActiveWorkspace} (hcurrent : e.writeEpoch = some k)
    (hactive : e.active = some active) (hafter : r.active = some after) :
    after.revision = active.revision ∨
      (n = k ∧ ∃ ticket base response applied, answer = .applied (.ok response) ∧
        (e.epochs k).running = some (.applying ticket base) ∧
        applyCommittedDocumentMutations active ticket.mutations = some applied ∧
        after.revision = base + 1 ∧ clientDocument after = clientDocument applied) ∨
      (n = k ∧ ∃ response, answer = .flushed (.ok response) ∧
        validateRevision response.committedRevision = some after.revision ∧
        active.revision ≤ after.revision) := by
  have hsame : SameButHealth e r → after.revision = active.revision := by
    intro hr
    obtain ⟨before, hbefore, hrevision⟩ := hr.revision hafter
    rw [hactive, some.injEq] at hbefore
    rw [← hrevision, hbefore]
  cases h with
  | idle same =>
    rw [same, hactive, some.injEq] at hafter
    exact .inl (by rw [hafter])
  | ended point busy frame rest quiet notes document => exact .inl (hsame document)
  | applied ticket base response old document health busy answered current before committed now =>
    rw [hcurrent, some.injEq] at current
    rw [hactive, some.injEq] at before
    rw [hafter, some.injEq] at now
    subst current before now
    obtain ⟨-, -, -, applied, happlied, rfl⟩ := committedDocument_some committed
    exact .inr (.inl ⟨rfl, ticket, base, response, applied, answered, busy, happlied, rfl, rfl⟩)
  | flushed target response old document busy answered current before taken now =>
    rw [hcurrent, some.injEq] at current
    rw [hactive, some.injEq] at before
    rw [hafter, some.injEq] at now
    subst current before now
    obtain ⟨revision, health, hrevision, -, hreached, rfl⟩ := applyFlushResponse_some taken
    exact .inr (.inr ⟨rfl, response, answered, hrevision, hreached⟩)

theorem SameButHealth.adopts {w' : World} (h : SameButHealth w.engine w'.engine) :
    w.AppliesWhatItAdopts w' := by
  intro n active after _ _ hactive hafter hother
  obtain ⟨before, hbefore, hrevision⟩ := h.revision hafter
  rw [hactive, some.injEq] at hbefore
  exact absurd (by rw [← hrevision, hbefore]) hother

theorem submitted_document {e r : Engine} (h : Submitted e r) : SameButHealth e r := by
  cases h with
  | refused same => exact .refl e e.active rfl r (by rw [same])
  | batch n ticket active health current before writable epoch workspace sequences epochs epoch_kept
      number after open_after notes =>
    exact ⟨health, by rw [after, before]; rfl⟩
  | flush n current same => exact .refl e e.active rfl r (by rw [same]; rfl)

theorem started_document {n : Nat} {e r : Engine} (h : Started n e r) : SameButHealth e r := by
  cases h with
  | idle same => exact .refl e e.active rfl r (by rw [same])
  | dropped task tail next free frame rest quiet notes document => exact document
  | sent ticket tail active next free frame current before writable document =>
    exact ⟨.saving, by rw [document, before]; rfl⟩
  | flushSent tail active next free frame current before writable document =>
    exact ⟨.saving, by rw [document, before]; rfl⟩

/-- A step that leaves the engine alone adopts nothing. -/
theorem adopts_same {w' : World} (h : w'.engine = w.engine) : w.AppliesWhatItAdopts w' :=
  SameButHealth.adopts (.refl w.engine w.engine.active rfl w'.engine (by rw [h]))

theorem openService_engine (w : World) (id : String) (service : WorkspaceService) :
    (w.openService native id service).engine = w.engine := by
  unfold World.openService
  split <;> rfl

theorem start_engine (w : World) (n : Nat) : (w.start n).engine = step w.engine (.start n) := by
  unfold World.start
  simp only
  split <;> rfl

theorem handle_engine (w : World) (call : Nat) (env : Surroundings) :
    (w.handle native call env).engine = w.engine := by
  unfold World.handle
  split
  · split
    · rfl
    · split_ifs
      · rfl
      · split <;> rfl
  · split_ifs
    · rfl
    · split <;> rfl
  · rfl

/-- An activation begins an epoch that is not the one before. -/
theorem activate_adopts (h : InOrder w.engine) (answer : Nat) :
    w.AppliesWhatItAdopts (w.activate native answer) := by
  unfold World.activate
  split
  · split
    · rename_i header saveHealth _ _ active _
      by_cases hback : w.engine.active.any (fun before =>
          before.workspaceId = active.workspaceId && active.revision < before.revision) = true
      · apply adopts_same
        simp only [step, activateHeader, hback, if_true, getD_none]
      · intro n before after hcurrent hnext
        have hepoch : (step w.engine (.activate { active with saveHealth })).writeEpoch =
              some (w.engine.abort.writeEpochNumber + 1) := by
          simp only [step, activateHeader, hback]
          rfl
        rw [hepoch, (abort_same w.engine).2.1, some.injEq] at hnext
        have hn := h.number n hcurrent
        omega
    · exact adopts_same rfl
  · exact adopts_same rfl

theorem adopts_step (h : Agreed native history w) (event : WorldEvent)
    (hmeets : w.Meets native event) : w.AppliesWhatItAdopts (w.step native event) := by
  cases event with
  | create request =>
    apply adopts_same
    simp only [World.step, World.create]
    split
    · exact openService_engine ..
    · rfl
  | open_ workspaceId =>
    apply adopts_same
    simp only [World.step, World.open_]
    split
    · exact openService_engine ..
    · rfl
  | activate answer => exact activate_adopts h.order answer
  | remove => rintro n active after _ ⟨⟩
  | commitBatch commands batchId =>
    exact (submitted_document (commitBatch_spec w.engine commands batchId)).adopts
  | flush => exact (submitted_document (flush_spec w.engine)).adopts
  | start epoch =>
    apply SameButHealth.adopts
    simp only [World.step, start_engine]
    exact started_document (start_spec h.order.sound epoch)
  | handle call env => exact adopts_same (handle_engine w call env)
  | answer epoch index =>
    simp only [World.step, World.answer]
    cases hanswer : w.answers[index]? with
    | none => exact adopts_same rfl
    | some found =>
      obtain ⟨call, reply⟩ := found
      simp only
      split_ifs with hwaiting
      swap
      · exact adopts_same rfl
      · intro n active after hcurrent _ hactive hafter hother
        obtain hsame | ⟨-, ticket, base, response, applied, -, hrunning, happlied, hnext, hdoc⟩ |
            ⟨rfl, response, hreply, hrevision, hreached⟩ :=
          settled_revision (settle_spec h.order.sound epoch reply.settles) hcurrent hactive hafter
        · exact absurd hsame hother
        · have hbase := h.bases n ticket base active hcurrent hrunning hactive
          rw [← hbase] at hrunning hnext
          exact ⟨ticket, applied, hrunning, happlied, hnext, hdoc⟩
        · cases reply with
          | applied answered => cases hreply
          | flushed revision saveHealth =>
            cases hreply
            have hbound := hmeets call revision saveHealth active hanswer hwaiting hcurrent hactive
            rw [validateRevision_nat hrevision] at hreached hother
            exact absurd (Nat.le_antisymm hbound hreached) hother
  | fail epoch error =>
    have hfails : ∀ answer, (∀ response, answer ≠ .applied (.ok response)) →
        (∀ response, answer ≠ .flushed (.ok response)) →
        w.AppliesWhatItAdopts { w with engine := step w.engine (.settle epoch answer) } := by
      intro answer happlied hflushed n active after hcurrent _ hactive hafter hother
      obtain hsame | ⟨-, _, _, response, _, hreply, -⟩ | ⟨-, response, hreply, -⟩ :=
        settled_revision (settle_spec h.order.sound epoch answer) hcurrent hactive hafter
      · exact absurd hsame hother
      · exact absurd hreply (happlied response)
      · exact absurd hreply (hflushed response)
    simp only [World.step, World.fail]
    split
    · exact hfails _ (by rintro response ⟨⟩) (by rintro response ⟨⟩)
    · exact hfails _ (by rintro response ⟨⟩) (by rintro response ⟨⟩)
    · exact adopts_same rfl

/-! ## Every run -/

theorem handled_run (events : List WorldEvent) (w : World) :
    w.handled <+: (runs.run (World.step native) w events).handled := by
  induction events generalizing w with
  | nil => exact List.prefix_refl _
  | cons event events ih => exact (handled_step w event).trans (ih _)

variable {hash : ApplyWorkspaceBatchRequest → List UInt8}

theorem collisionFree_of_fewer {sent more : List ApplyWorkspaceBatchRequest}
    (h : CollisionFree hash more) (hstarts : sent <+: more) :
    CollisionFree hash sent := fun a ha b hb =>
  h a (hstarts.subset ha) b (hstarts.subset hb)

/-- A world without a workspace has no document to agree on. -/
theorem agreed_new (native : Native) : Agreed native (fun _ => []) {} where
  order := inOrder_run []
  absent _ _ := rfl
  stored := by rintro id service ⟨⟩
  ledger := by rintro id service ⟨⟩
  headers := by rintro answer ⟨⟩
  calls := by rintro n ticket base ⟨⟩
  answers := by rintro i response ⟨⟩
  client := by rintro active ⟨⟩
  bases := by rintro n ticket base active ⟨⟩

theorem agreed_run (events : List WorldEvent) (h : Agreed native history w)
    (hmeets : RunMeets native w events)
    (hfree : CollisionFree native.hash (runs.run (World.step native) w events).handled) :
    ∃ history', Agreed native history' (runs.run (World.step native) w events) := by
  induction events generalizing w history with
  | nil => exact ⟨history, h⟩
  | cons event events ih =>
    obtain ⟨hstep, hrest⟩ := hmeets
    obtain ⟨history', hnext⟩ :=
      h.step event hstep (collisionFree_of_fewer hfree (handled_run events _))
    exact ih hnext hrest hfree

theorem Agreed.sameAtOneRevision (h : Agreed native history w) : w.SameAtOneRevision native := by
  intro active service header hactive hfound hheader hrevision
  obtain ⟨-, hmeta, hdocument⟩ := readHeader_ok' hheader
  obtain ⟨-, -, -, hstored⟩ := h.stored active.workspaceId service hfound
  have hclient := h.client active hactive
  rw [hrevision, hmeta, hstored, some.injEq, ← hdocument] at hclient
  have hsame : clientDocument active = headerDocument header := hclient.symm
  simp only [clientDocument, headerDocument, Document.mk.injEq] at hsame
  exact hsame

/-- In a run in which every header that begins an epoch is plain, and no flush that the current
epoch takes in reports a revision above that of its document, the renderer and the store are at
one revision only with one document, and the renderer adopts no revision without the mutations
that led there. -/
theorem client_and_store_agree (native : Native) (events : List WorldEvent)
    (hmeets : RunMeets native {} events)
    (hfree : CollisionFree native.hash (runs.run (World.step native) {} events).handled) :
    (runs.run (World.step native) {} events).SameAtOneRevision native ∧
      ∀ before event after, events = before ++ event :: after →
        (runs.run (World.step native) {} before).AppliesWhatItAdopts
          (runs.run (World.step native) {} (before ++ [event])) := by
  refine ⟨?_, ?_⟩
  · obtain ⟨history, h⟩ := agreed_run events (agreed_new native) hmeets hfree
    exact h.sameAtOneRevision
  · intro before event after heq
    subst heq
    obtain ⟨hbefore, hevent, -⟩ := runMeets_append.1 hmeets
    rw [runs.run_append] at hfree
    obtain ⟨history, h⟩ := agreed_run before (agreed_new native) hbefore
      (collisionFree_of_fewer hfree (handled_run _ _))
    rw [runs.run_append]
    exact adopts_step h event hevent

/-! ## A batch that is committed, and the answer to it -/

/-- A native side with one layout, for which a batch is its name. -/
def plainNative : Native where
  ipc := ⟨fun _ => .null, fun _ => .nonFinite, fun _ => .object []⟩
  hash request := request.clientBatchId.toUTF8.toList
  fromStr _ := some (.object [])

/-- A project is made and opened, and a batch that renames it is committed. -/
def renamed : List WorldEvent :=
  [.create ⟨"w", "w", 0⟩, .activate 0,
    .commitBatch [.setMetadata ⟨some "next", none, none⟩] (some "b"), .start 1,
    .handle 0 quietSurroundings]

/-- The answer gets lost, and the flush that follows reports the revision of the batch. -/
def flushedAfterLoss : List WorldEvent :=
  renamed ++ [.fail 1 ⟨none, none⟩, .flush, .start 1, .handle 1 quietSurroundings, .answer 1 1]

theorem collisionFree_of_length {sent : List ApplyWorkspaceBatchRequest} (h : sent.length ≤ 1) :
    CollisionFree hash sent := by
  intro a ha b hb _
  match sent, h, ha, hb with
  | [only], _, ha, hb => rw [List.mem_singleton.1 ha, List.mem_singleton.1 hb]

theorem client_and_store_agree_once_answered :
    RunMeets plainNative {} (renamed ++ [.answer 1 0]) ∧
      (runs.run (World.step plainNative) {} (renamed ++ [.answer 1 0])).engine.active.map
        (fun active => (active.revision, active.name)) = some (1, "next") ∧
      (runs.run (World.step plainNative) {} (renamed ++ [.answer 1 0])).SameAtOneRevision
        plainNative := by
  have hmeets : RunMeets plainNative {} (renamed ++ [.answer 1 0]) := by decide +kernel
  refine ⟨hmeets, by decide +kernel, ?_⟩
  refine (client_and_store_agree plainNative _ hmeets ?_).1
  exact collisionFree_of_length (by decide +kernel)

/-- Both sides are at revision 1, and only the store has the new name. -/
theorem flush_adopts_revision_without_mutations :
    CollisionFree plainNative.hash (runs.run (World.step plainNative) {} flushedAfterLoss).handled ∧
    ¬(runs.run (World.step plainNative) {} flushedAfterLoss).SameAtOneRevision plainNative := by
  refine ⟨collisionFree_of_length (by decide +kernel), ?_⟩
  intro h
  have hclient : (runs.run (World.step plainNative) {} flushedAfterLoss).engine.active.map
      (fun active => (active.workspaceId, active.revision, active.name)) = some ("w", 1, "w") := by
    decide +kernel
  have hstore : ((runs.run (World.step plainNative) {} flushedAfterLoss).library "w").bind
      (fun service => (readHeader plainNative.fromStr service.db).toOption.map
        fun header => (header.revision, header.name)) = some (1, "next") := by
    decide +kernel
  obtain ⟨active, hactive, hshown⟩ := map_eq_some_iff.1 hclient
  obtain ⟨service, hfound, hread⟩ := bind_eq_some_iff.1 hstore
  obtain ⟨header, hheader, hkept⟩ := map_eq_some_iff.1 hread
  simp only [Prod.mk.injEq] at hshown hkept
  obtain ⟨hid, hrevision, hname⟩ := hshown
  have hok : readHeader plainNative.fromStr service.db = .ok header := by
    cases hresult : readHeader plainNative.fromStr service.db with
    | error error =>
      rw [hresult] at hheader
      cases hheader
    | ok read =>
      rw [hresult] at hheader
      cases hheader
      rfl
  have hsame := (h active service header hactive (by rw [hid]; exact hfound) hok
    (hrevision.trans hkept.1.symm)).1
  rw [hname, hkept.2] at hsame
  exact absurd hsame (by decide)

end bbcom.write_epoch
