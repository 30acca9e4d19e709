-- The table of pending requests: who comes in, who leaves and how, and who answers whom.
import Bbcom.Lib.Runs
import Bbcom.SmpSteps

open bbcom.js bbcom.runs

namespace bbcom.smp

open McumgrSmpParser List Option

/-! ## The ledger -/

/-- What the correlation reads and writes of a record. -/
structure RecordKey where
  id : Nat
  direction : Direction
  header : Option SmpHeader
  requestId : Option Nat
  responseId : Option Nat

def SmpRecord.key (r : SmpRecord) : RecordKey :=
  ⟨r.id, r.direction, r.header, r.requestId, r.responseId⟩

/-- The part of a parser that the correlation works on. -/
structure Ledger where
  keys : List RecordKey
  next : Nat
  pending : List PendingRequest
  admitted : List Nat
  departed : List (Nat × Departure)

def McumgrSmpParser.ledger (p : McumgrSmpParser) : Ledger :=
  ⟨p.records.map SmpRecord.key, p.nextRecordNumber, p.pendingRequests, p.admitted, p.departed⟩

/-- The response is the answer to the request. -/
def Answers (request response : RecordKey) : Prop :=
  request.direction ≠ response.direction ∧ ∃ asked told, request.header = some asked ∧
    response.header = some told ∧ expectedResponseOp asked.op = some told.op ∧
    asked.sequence = told.sequence ∧ asked.group = told.group ∧ asked.command = told.command

structure Balanced (l : Ledger) : Prop where
  ids : ∀ i k, l.keys[i]? = some k → k.id = i + 1
  next : l.next = l.keys.length + 1
  admitted_nodup : l.admitted.Nodup
  admitted_lt : ∀ ref ∈ l.admitted, ref < l.keys.length
  balance : l.admitted.Perm (l.departed.map Prod.fst ++ l.pending.map (·.record))
  waiting : ∀ e ∈ l.pending, ∃ k asked, l.keys[e.record]? = some k ∧ k.header = some asked ∧
    expectedResponseOp asked.op = some e.expectedOp ∧ k.responseId = none
  requestId : ∀ i k q, l.keys[i]? = some k → k.requestId = some q →
    ∃ j request, q = j + 1 ∧ l.keys[j]? = some request ∧ request.responseId = some (i + 1) ∧
      Answers request k
  responseId : ∀ j k s, l.keys[j]? = some k → k.responseId = some s →
    ∃ i response, s = i + 1 ∧ l.keys[i]? = some response ∧ response.requestId = some (j + 1)
  answered : ∀ j i, (j, .answered i) ∈ l.departed →
    ∃ k, l.keys[j]? = some k ∧ k.responseId = some (i + 1)

theorem balanced_new (config : McumgrSmpParserConfig) :
    Balanced (McumgrSmpParser.new config).ledger := by
  constructor
  all_goals simp [new, ledger]

section

variable {l : Ledger}

/-! ## What can happen to it -/

variable {e : PendingRequest}

theorem Balanced.pending_admitted (h : Balanced l) (he : e ∈ l.pending) :
    e.record ∈ l.admitted :=
  h.balance.symm.subset (mem_append_right _ (mem_map_of_mem he))

theorem Balanced.pending_nodup (h : Balanced l) : (l.pending.map (·.record)).Nodup :=
  (nodup_append.1 (h.balance.nodup_iff.1 h.admitted_nodup)).2.1

theorem Balanced.create (h : Balanced l) {k : RecordKey} (hrequest : k.requestId = none)
    (hresponse : k.responseId = none) :
    Balanced { l with keys := l.keys ++ [{ k with id := l.next }], next := l.next + 1 } := by
  have hold : ∀ i k', l.keys[i]? = some k' → (l.keys ++ [{ k with id := l.next }])[i]? = some k' :=
    fun i k' hi => by
      rw [getElem?_append_left (getElem?_eq_some_iff.1 hi).1]
      exact hi
  have hcases : ∀ i k', (l.keys ++ [{ k with id := l.next }])[i]? = some k' →
      l.keys[i]? = some k' ∨ i = l.keys.length ∧ k' = { k with id := l.next } := by
    intro i k' hi
    rcases Nat.lt_or_ge i l.keys.length with hlt | hge
    · rw [getElem?_append_left hlt] at hi
      exact .inl hi
    · rw [getElem?_append_right hge] at hi
      have hzero : i - l.keys.length = 0 := by
        by_contra hne
        have hpast : [{ k with id := l.next }].length ≤ i - l.keys.length := by
          rw [length_singleton]
          omega
        rw [getElem?_eq_none hpast] at hi
        cases hi
      rw [hzero] at hi
      exact .inr ⟨by omega, (some.inj hi).symm⟩
  refine
    { ids := ?_
      next := ?_
      admitted_nodup := h.admitted_nodup
      admitted_lt := ?_
      balance := h.balance
      waiting := ?_
      requestId := ?_
      responseId := ?_
      answered := ?_ }
  · intro i k' hi
    rcases hcases i k' hi with hi | ⟨rfl, rfl⟩
    · exact h.ids i k' hi
    · exact h.next
  · simp [h.next]
  · intro ref href
    have hlt := h.admitted_lt ref href
    simp only [length_append]
    omega
  · intro e he
    obtain ⟨k', asked, hk, hrest⟩ := h.waiting e he
    exact ⟨k', asked, hold _ _ hk, hrest⟩
  · intro i k' q hi hq
    rcases hcases i k' hi with hi | ⟨_, rfl⟩
    · obtain ⟨j, request, hj, hk, hrest⟩ := h.requestId i k' q hi hq
      exact ⟨j, request, hj, hold _ _ hk, hrest⟩
    · rw [show ({ k with id := l.next } : RecordKey).requestId = k.requestId from rfl,
        hrequest] at hq
      cases hq
  · intro j k' s hj hs
    rcases hcases j k' hj with hj | ⟨_, rfl⟩
    · obtain ⟨i, response, hi, hk, hrest⟩ := h.responseId j k' s hj hs
      exact ⟨i, response, hi, hold _ _ hk, hrest⟩
    · rw [show ({ k with id := l.next } : RecordKey).responseId = k.responseId from rfl,
        hresponse] at hs
      cases hs
  · intro j i hji
    obtain ⟨k', hk, hs⟩ := h.answered j i hji
    exact ⟨k', hold _ _ hk, hs⟩

/-- Requests leave without an answer. -/
theorem Balanced.leave (h : Balanced l) (gone pending : List PendingRequest)
    (hsplit : l.pending.Perm (gone ++ pending)) {departures : List (Nat × Departure)}
    (hgone : departures.map Prod.fst = gone.map (·.record))
    (hreason : ∀ j i, (j, .answered i) ∉ departures) :
    Balanced { l with pending, departed := l.departed ++ departures } := by
  refine { h with
    balance := ?_
    waiting e he := h.waiting e (hsplit.symm.subset (mem_append_right _ he))
    answered := ?_ }
  · have hmoved : (l.departed ++ departures).map Prod.fst ++ pending.map (·.record) =
        l.departed.map Prod.fst ++ (gone ++ pending).map (·.record) := by
      rw [map_append, map_append, hgone, append_assoc]
    rw [hmoved]
    exact h.balance.trans ((hsplit.map _).append_left _)
  · intro j i hji
    rcases mem_append.1 hji with hold | hnew
    · exact h.answered j i hold
    · exact (hreason j i hnew).elim

theorem Balanced.admit (h : Balanced l) {ref : Nat} (hnew : ref ∉ l.admitted) {k : RecordKey}
    (hk : l.keys[ref]? = some k) {asked : SmpHeader} (hheader : k.header = some asked)
    {expectedOp : Nat} (hop : expectedResponseOp asked.op = some expectedOp)
    (hresponse : k.responseId = none) (expiresAt : Int) :
    Balanced { l with
      pending := l.pending ++ [⟨ref, expectedOp, expiresAt⟩]
      admitted := l.admitted ++ [ref] } := by
  refine { h with
    admitted_nodup := ?_
    admitted_lt := ?_
    balance := ?_
    waiting := ?_ }
  · rw [nodup_append]
    exact ⟨h.admitted_nodup, nodup_singleton _, fun a ha b hb hab =>
      hnew (mem_singleton.1 hb ▸ hab ▸ ha)⟩
  · intro other hother
    rcases mem_append.1 hother with hold | hlast
    · exact h.admitted_lt other hold
    · rw [mem_singleton.1 hlast]
      exact (List.getElem?_eq_some_iff.1 hk).1
  · rw [map_append, ← append_assoc]
    exact h.balance.append_right _
  · intro e he
    rcases mem_append.1 he with hold | hlast
    · exact h.waiting e hold
    · rw [mem_singleton.1 hlast]
      exact ⟨k, asked, hk, hheader, hop, hresponse⟩

/-- The keys after an answer. -/
theorem getElem?_paired {keys : List RecordKey} {asked ref : Nat} (hne : asked ≠ ref)
    {request response : RecordKey} (hrequest : keys[asked]? = some request)
    (hresponse : keys[ref]? = some response) (i : Nat) :
    ((keys.modify asked fun k => { k with responseId := some response.id }).modify ref
        fun k => { k with requestId := some request.id })[i]? =
      if i = asked then some { request with responseId := some response.id }
      else if i = ref then some { response with requestId := some request.id }
      else keys[i]? := by
  rw [getElem?_modify, getElem?_modify]
  by_cases hasked : i = asked
  · subst hasked
    simp [hrequest, hne.symm]
  · by_cases href : i = ref
    · subst href
      simp [hresponse, hne, hasked]
    · simp [hasked, href, Ne.symm hasked, Ne.symm href]

/-- A request and the response that answers it learn each other's id. -/
theorem Balanced.answer (h : Balanced l) (he : e ∈ l.pending) {ref : Nat}
    (hfresh : ref ∉ l.admitted) {request response : RecordKey}
    (hrequest : l.keys[e.record]? = some request) (hresponse : l.keys[ref]? = some response)
    (hnone : response.requestId = none) (hnone' : response.responseId = none)
    (hmatch : Answers request response) :
    Balanced { l with
      keys := (l.keys.modify e.record fun k => { k with responseId := some response.id }).modify
        ref fun k => { k with requestId := some request.id }
      pending := l.pending.erase e
      departed := l.departed ++ [(e.record, .answered ref)] } := by
  have hne : e.record ≠ ref := fun heq => hfresh (heq ▸ h.pending_admitted he)
  have hrequestId : request.id = e.record + 1 := h.ids _ _ hrequest
  have hresponseId : response.id = ref + 1 := h.ids _ _ hresponse
  have hunanswered : request.responseId = none := by
    obtain ⟨k, _, hk, _, _, hopen⟩ := h.waiting e he
    rw [hrequest, some.injEq] at hk
    rw [hk]
    exact hopen
  have hkeys := getElem?_paired hne hrequest hresponse
  -- who has heard of a response is neither of the two
  have hother : ∀ {j k s}, l.keys[j]? = some k → k.responseId = some s →
      j ≠ e.record ∧ j ≠ ref := by
    intro j k s hk hs
    constructor
    · rintro rfl
      rw [hrequest, some.injEq] at hk
      rw [← hk, hunanswered] at hs
      cases hs
    · rintro rfl
      rw [hresponse, some.injEq] at hk
      rw [← hk, hnone'] at hs
      cases hs
  refine
    { ids := ?_
      next := ?_
      admitted_nodup := h.admitted_nodup
      admitted_lt := ?_
      balance := ?_
      waiting := ?_
      requestId := ?_
      responseId := ?_
      answered := ?_ }
  · intro i k hi
    rw [hkeys] at hi
    split_ifs at hi with hasked href
    · rw [← some.inj hi, hasked]
      exact hrequestId
    · rw [← some.inj hi, href]
      exact hresponseId
    · exact h.ids i k hi
  · simp [h.next]
  · intro other hmem
    have hlt := h.admitted_lt other hmem
    simpa using hlt
  · have hperm : l.pending.Perm (e :: l.pending.erase e) := perm_cons_erase he
    have hmoved : (l.departed ++ [(e.record, Departure.answered ref)]).map Prod.fst ++
        (l.pending.erase e).map (·.record) =
        l.departed.map Prod.fst ++ (e :: l.pending.erase e).map (·.record) := by
      rw [map_append, append_assoc]
      rfl
    rw [hmoved]
    exact h.balance.trans ((hperm.map _).append_left _)
  · intro e' he'
    have hmem : e' ∈ l.pending := mem_of_mem_erase he'
    have hrecord : e'.record ≠ e.record := by
      intro heq
      have hsame : e' = e := inj_on_of_nodup_map h.pending_nodup hmem he heq
      rw [hsame] at he'
      exact (h.pending_nodup.of_map _).not_mem_erase he'
    have hrecord' : e'.record ≠ ref := fun heq => hfresh (heq ▸ h.pending_admitted hmem)
    obtain ⟨k, asked, hk, hrest⟩ := h.waiting e' hmem
    refine ⟨k, asked, ?_, hrest⟩
    rw [hkeys, if_neg hrecord, if_neg hrecord']
    exact hk
  · intro i k q hi hq
    rw [hkeys] at hi
    have hold : ∀ k', l.keys[i]? = some k' → k'.requestId = some q → k'.direction = k.direction →
        k'.header = k.header → ∃ j request', q = j + 1 ∧
          ((l.keys.modify e.record fun k => { k with responseId := some response.id }).modify ref
            fun k => { k with requestId := some request.id })[j]? = some request' ∧
          request'.responseId = some (i + 1) ∧ Answers request' k := by
      intro k' hk' hq' hdirection hheader
      obtain ⟨j, request', hj, hk, hs, hanswers⟩ := h.requestId i k' q hk' hq'
      obtain ⟨hasked, href⟩ := hother hk hs
      refine ⟨j, request', hj, ?_, hs, ?_⟩
      · rw [hkeys, if_neg hasked, if_neg href]
        exact hk
      · unfold Answers at hanswers ⊢
        rw [← hdirection, ← hheader]
        exact hanswers
    split_ifs at hi with hasked href
    · subst hasked
      have hk := some.inj hi
      subst hk
      exact hold request hrequest hq rfl rfl
    · subst href
      have hk := some.inj hi
      subst hk
      refine ⟨e.record, { request with responseId := some response.id }, ?_, ?_, ?_, hmatch⟩
      · rw [← hrequestId]
        exact (some.inj hq).symm
      · rw [hkeys, if_pos rfl]
      · rw [← hresponseId]
    · exact hold k hi hq rfl rfl
  · intro j k s hj hs
    rw [hkeys] at hj
    split_ifs at hj with hasked href
    · subst hasked
      have hk := some.inj hj
      subst hk
      refine ⟨ref, { response with requestId := some request.id }, ?_, ?_, ?_⟩
      · rw [← hresponseId]
        exact (some.inj hs).symm
      · rw [hkeys, if_neg hne.symm, if_pos rfl]
      · rw [← hrequestId]
    · have hk := some.inj hj
      subst hk
      rw [show ({ response with requestId := some request.id } : RecordKey).responseId =
        response.responseId from rfl, hnone'] at hs
      cases hs
    · obtain ⟨i, told, hi, htold, hback⟩ := h.responseId j k s hj hs
      by_cases hireq : i = e.record
      · subst hireq
        rw [hrequest, some.injEq] at htold
        subst htold
        refine ⟨e.record, { request with responseId := some response.id }, hi, ?_, hback⟩
        rw [hkeys, if_pos rfl]
      · have hires : i ≠ ref := by
          rintro rfl
          rw [hresponse, some.injEq] at htold
          rw [← htold, hnone] at hback
          cases hback
        refine ⟨i, told, hi, ?_, hback⟩
        rw [hkeys, if_neg hireq, if_neg hires]
        exact htold
  · intro j i hji
    rcases mem_append.1 hji with hold | hnew
    · obtain ⟨k, hk, hs⟩ := h.answered j i hold
      obtain ⟨hasked, href⟩ := hother hk hs
      refine ⟨k, ?_, hs⟩
      rw [hkeys, if_neg hasked, if_neg href]
      exact hk
    · have hpair := mem_singleton.1 hnew
      rw [Prod.mk.injEq, Departure.answered.injEq] at hpair
      obtain ⟨rfl, rfl⟩ := hpair
      refine ⟨{ request with responseId := some response.id }, ?_, ?_⟩
      · rw [hkeys, if_pos rfl]
      · rw [← hresponseId]

end

/-! ## What the parser does to it -/

theorem map_modify_of {α β : Type} {g : α → β} {f : α → α} {f' : β → β}
    (h : ∀ a, g (f a) = f' (g a)) (items : List α) (i : Nat) :
    (items.modify i f).map g = (items.map g).modify i f' := by
  apply ext_getElem?
  intro j
  rw [getElem?_map, getElem?_modify, getElem?_modify, getElem?_map]
  cases items[j]? with
  | none => rfl
  | some a =>
    by_cases hij : i = j
    · simp [hij, h]
    · simp [hij]

namespace McumgrSmpParser

variable {runtime : Runtime} {p : McumgrSmpParser}

theorem ledger_setState (p : McumgrSmpParser) (d : Direction) (s : DirectionState) :
    (p.setState d s).ledger = p.ledger := by
  cases d <;> rfl

variable {f : SmpRecord → SmpRecord}

theorem ledger_change {g : RecordKey → RecordKey} (h : ∀ r, (f r).key = g r.key)
    (p : McumgrSmpParser) (ref : Nat) :
    (p.change ref f).ledger = { p.ledger with keys := p.ledger.keys.modify ref g } := by
  simp only [ledger, change, map_modify_of h]

/-- A change of what the correlation does not look at. -/
theorem ledger_change_other (h : ∀ r, (f r).key = r.key) (p : McumgrSmpParser) (ref : Nat) :
    (p.change ref f).ledger = p.ledger := by
  rw [ledger_change (g := id) h, modify_id]

theorem ledger_create (p : McumgrSmpParser) (r : SmpRecord) :
    (p.create r).1.ledger =
      { p.ledger with
        keys := p.ledger.keys ++ [{ r.key with id := p.ledger.next }]
        next := p.ledger.next + 1 } := by
  simp [create, ledger, SmpRecord.key]

theorem ledger_leave (p : McumgrSmpParser) (ref : Nat) (departure : Departure) (message : String) :
    (p.leave ref departure message).ledger =
      { p.ledger with departed := p.ledger.departed ++ [(ref, departure)] } := by
  have hmark := ledger_change_other (f := markRequestUnmatched message) (fun _ => rfl) p ref
  rw [← hmark]
  rfl

theorem ledger_foldr_leave (p : McumgrSmpParser) (gone : List PendingRequest)
    (departure : Departure) (message : String) :
    (gone.foldr (fun e p => p.leave e.record departure message) p).ledger =
      { p.ledger with
        departed := p.ledger.departed ++ gone.reverse.map fun e => (e.record, departure) } := by
  induction gone with
  | nil => simp [ledger]
  | cons e gone ih =>
    rw [foldr_cons, ledger_leave, ih, reverse_cons, map_append, ← append_assoc]
    rfl

theorem ledger_expire (p : McumgrSmpParser) (now : Int) :
    (p.expirePendingRequests now).ledger =
      { p.ledger with
        pending := p.ledger.pending.filter fun e => now < e.expiresAt
        departed := p.ledger.departed ++
          (p.ledger.pending.filter fun e => e.expiresAt ≤ now).reverse.map fun e =>
            (e.record, .expired) } :=
  ledger_foldr_leave _ _ _ _

theorem expire_balanced (h : Balanced p.ledger) (now : Int) :
    Balanced (p.expirePendingRequests now).ledger := by
  have hnot : (fun e : PendingRequest => decide (now < e.expiresAt)) =
      fun e => !decide (e.expiresAt ≤ now) := by
    funext e
    rw [← decide_not, decide_eq_decide, not_le]
  rw [ledger_expire]
  refine h.leave (p.ledger.pending.filter fun e => e.expiresAt ≤ now).reverse _ ?_ ?_ ?_
  · rw [hnot]
    exact ((reverse_perm _).append_right _).trans (filter_append_perm _ _) |>.symm
  · rw [List.map_map]
    rfl
  · intro j i hji
    obtain ⟨e, _, heq⟩ := List.mem_map.1 hji
    cases heq

theorem expire_bound (p : McumgrSmpParser) (now : Int) :
    (p.expirePendingRequests now).pendingRequests.length ≤ p.pendingRequests.length := by
  have hsame := congrArg Ledger.pending (ledger_expire p now)
  change (p.expirePendingRequests now).pendingRequests = _ at hsame
  rw [hsame]
  exact length_filter_le _ _

theorem evict_balanced (h : Balanced p.ledger) (fuel : Nat) :
    Balanced (evict fuel p).ledger := by
  induction fuel generalizing p with
  | zero => exact h
  | succ fuel ih =>
    unfold evict
    split_ifs
    · split
      · exact h
      · rename_i first rest hpending
        apply ih
        rw [ledger_leave]
        refine h.leave [first] rest ?_ rfl ?_
        · change p.pendingRequests.Perm _
          rw [hpending]
          exact Perm.refl _
        · intro j i hji
          cases mem_singleton.1 hji
    · exact h

theorem evict_bound {fuel : Nat}
    (h : p.pendingRequests.length ≤ DEFAULT_SMP_MAX_PENDING_REQUESTS + fuel) :
    (evict fuel p).pendingRequests.length ≤ DEFAULT_SMP_MAX_PENDING_REQUESTS := by
  induction fuel generalizing p with
  | zero => exact h
  | succ fuel ih =>
    unfold evict
    split_ifs with hfull
    · split
      · rename_i hpending
        rw [hpending]
        exact Nat.zero_le _
      · rename_i first rest hpending
        apply ih
        rw [hpending, length_cons] at h
        exact Nat.le_of_succ_le_succ h
    · exact Nat.le_of_not_lt hfull

variable {record : SmpRecord}

/-- What it takes to be the request that a response answers. -/
theorem answers_iff {told : SmpHeader} {e : PendingRequest} (h : p.answers record told e = true) :
    ∃ request asked, p.records[e.record]? = some request ∧ request.header = some asked ∧
      request.direction ≠ record.direction ∧ e.expectedOp = told.op ∧
      asked.sequence = told.sequence ∧ asked.group = told.group ∧
      asked.command = told.command := by
  unfold answers at h
  split at h
  · cases h
  · rename_i request hrequest
    obtain ⟨hdirection, hop, hsequence, hgroup, hcommand⟩ := of_decide_eq_true h
    obtain ⟨asked, hasked, hsame⟩ := map_eq_some_iff.1 hsequence
    rw [hasked, map_some, some.injEq] at hgroup hcommand
    exact ⟨request, asked, hrequest, hasked, hdirection, hop, hsame, hgroup, hcommand⟩

theorem correlate_balanced (h : Balanced p.ledger)
    (hbound : p.pendingRequests.length ≤ DEFAULT_SMP_MAX_PENDING_REQUESTS) {ref : Nat}
    (hkey : p.ledger.keys[ref]? = some record.key) (hnew : ref ∉ p.ledger.admitted)
    (hrequest : record.requestId = none) (hresponse : record.responseId = none) :
    Balanced (p.correlate ref record).ledger ∧
      (p.correlate ref record).pendingRequests.length ≤ DEFAULT_SMP_MAX_PENDING_REQUESTS := by
  unfold correlate
  split
  · exact ⟨h, hbound⟩
  · rename_i header hheader
    have hexpired := expire_balanced h record.timestamp
    have hexpired' := (expire_bound p record.timestamp).trans hbound
    have hledger := ledger_expire p record.timestamp
    generalize p.expirePendingRequests record.timestamp = p' at hexpired hexpired' hledger
    have hkey' : p'.ledger.keys[ref]? = some record.key := by
      rw [hledger]
      exact hkey
    have hnew' : ref ∉ p'.ledger.admitted := by
      rw [hledger]
      exact hnew
    simp only
    split
    · -- a request comes into the table
      rename_i expectedOp hop
      have hopen := ledger_change_other (f := fun record : SmpRecord =>
          if record.status = .ok then { record with status := .pending } else record)
        (fun r => by split_ifs <;> rfl) p' ref
      generalize (p'.change ref fun record =>
        if record.status = .ok then { record with status := .pending } else record) = q at hopen
      have hadmit := hexpired.admit hnew' hkey' hheader hop hresponse
        (record.timestamp + DEFAULT_SMP_REQUEST_TIMEOUT_MS)
      rw [← hopen] at hadmit
      refine ⟨evict_balanced hadmit _, evict_bound ?_⟩
      have hsame : q.pendingRequests = p'.pendingRequests := congrArg Ledger.pending hopen
      simp only [length_append, hsame]
      omega
    · split_ifs with hkind
      · exact ⟨hexpired, hexpired'⟩
      · split
        · rw [ledger_change_other (f := orphanResponse) (fun _ => rfl)]
          exact ⟨hexpired, hexpired'⟩
        · rename_i e hfind
          obtain ⟨request, asked, hat, hasked, hdirection, hop, hsequence, hgroup, hcommand⟩ :=
            answers_iff (find?_some hfind)
          have hmem := mem_of_find?_eq_some hfind
          have hasker : p'.ledger.keys[e.record]? = some request.key := by
            simp [ledger, hat]
          have hmatch : Answers request.key record.key := by
            obtain ⟨k, asked', hk, hasked', hop', _⟩ := hexpired.waiting e hmem
            rw [hasker, some.injEq] at hk
            rw [← hk] at hasked'
            have hsame : asked = asked' := some.inj (hasked.symm.trans hasked')
            exact ⟨hdirection, asked, header, hasked, hheader, by rw [hsame, hop', hop],
              hsequence, hgroup, hcommand⟩
          have hanswer := hexpired.answer hmem hnew' hasker hkey' hrequest hresponse hmatch
          simp only [hat]
          rw [ledger_change (g := fun k => { k with requestId := some request.id }) (fun _ => rfl),
            ledger_change (g := fun k => { k with responseId := some record.id }) (fun _ => rfl)]
          exact ⟨hanswer, (length_erase_le).trans hexpired'⟩

/-- The table is balanced and not too large. -/
def Sound (p : McumgrSmpParser) : Prop :=
  Balanced p.ledger ∧ p.pendingRequests.length ≤ DEFAULT_SMP_MAX_PENDING_REQUESTS

theorem sound_new (config : McumgrSmpParserConfig) : Sound (new config) :=
  ⟨balanced_new config, Nat.zero_le _⟩

theorem Sound.decodeMessage (h : Sound p) (message : Uint8Array) (context : TransportContext)
    (packetOffset : Nat) : Sound (p.decodeMessage runtime message context packetOffset).1 := by
  let record : SmpRecord := { p.messageRecord runtime message context packetOffset with
    id := p.nextRecordNumber }
  have hcreated : (p.create record).1.ledger = { p.ledger with
      keys := p.ledger.keys ++ [{ record.key with id := p.ledger.next }]
      next := p.ledger.next + 1 } := ledger_create p record
  have hbalanced : Balanced (p.create record).1.ledger := by
    rw [hcreated]
    exact h.1.create rfl rfl
  have hkey : (p.create record).1.ledger.keys[p.records.length]? = some record.key := by
    have hlength : p.records.length = p.ledger.keys.length := by simp [ledger]
    rw [hcreated, hlength, getElem?_append_right le_rfl, Nat.sub_self]
    rfl
  have hnew : p.records.length ∉ (p.create record).1.ledger.admitted := by
    intro hmem
    have hlt := h.1.admitted_lt _ hmem
    simp [ledger] at hlt
  have hcorrelated : Sound ((p.create record).1.correlate p.records.length record) :=
    correlate_balanced hbalanced h.2 hkey hnew rfl rfl
  have hcreated' : Sound (p.create record).1 := ⟨hbalanced, h.2⟩
  unfold McumgrSmpParser.decodeMessage
  simp only
  split_ifs
  · exact hcorrelated
  · exact hcreated'

/-- What the parser does keeps the table so. -/
theorem Sound.steps (h : Sound p) {q : McumgrSmpParser} (hsteps : Steps runtime p q) :
    Sound q := by
  induction hsteps with
  | none => exact h
  | @state q _ d s ih =>
    refine ⟨?_, ?_⟩
    · rw [ledger_setState]
      exact ih.1
    · have hsame := congrArg Ledger.pending (ledger_setState q d s)
      change (q.setState d s).pendingRequests = q.pendingRequests at hsame
      rw [hsame]
      exact ih.2
  | error _ d timestamp captureSeq offset data code message severity ih =>
    refine ⟨?_, ih.2⟩
    unfold transportErrorRecord
    rw [ledger_create]
    exact ih.1.create rfl rfl
  | message _ message context packetOffset ih => exact ih.decodeMessage message context packetOffset
  | @padding q _ ref packetOffset length ih =>
    refine ⟨?_, ih.2⟩
    rw [ledger_change_other (f := paddingWarning packetOffset length) (fun _ => rfl)]
    exact ih.1
  | expire _ now ih => exact ⟨expire_balanced ih.1 now, (expire_bound _ now).trans ih.2⟩

end McumgrSmpParser

/-! ## Runs -/

/-- Calls of the parser, and messages that any transport may have decoded. -/
inductive Event
  | feed (chunk : SmpTrafficChunk)
  | flushExpired (now : Int)
  | message (message : Uint8Array) (context : TransportContext) (packetOffset : Nat)
  | diagnostic (direction : Direction) (timestamp : Int) (captureSeq : Option Nat)
      (code message : String) (severity : Option Severity) (data : Option Uint8Array)
  | reset

def step (runtime : Runtime) (p : McumgrSmpParser) : Event → McumgrSmpParser
  | .feed chunk => (p.feed runtime chunk).1
  | .flushExpired now => (p.flushExpired now).1
  | .message message context packetOffset =>
    (p.decodeMessage runtime message context packetOffset).1
  | .diagnostic direction timestamp captureSeq code message severity data =>
    (p.diagnostic direction timestamp captureSeq code message severity data).1
  | .reset => p.reset

theorem sound_step {runtime : Runtime} (p : McumgrSmpParser) (e : Event) (h : p.Sound) :
    (step runtime p e).Sound := by
  cases e with
  | feed chunk => exact h.steps (feed_steps runtime p chunk)
  | flushExpired now =>
    exact h.steps (flushExpired_steps runtime p now)
  | message message context packetOffset => exact h.decodeMessage message context packetOffset
  | diagnostic direction timestamp captureSeq code message severity data =>
    exact h.steps (diagnostic_steps runtime p direction timestamp
      captureSeq code message severity data)
  | reset => exact sound_new p.config

/-- Of two records the one has been told that the other is its counterpart. -/
def SmpRecord.AnswersTo (response request : SmpRecord) : Prop :=
  request.direction ≠ response.direction ∧ ∃ asked told, request.header = some asked ∧
    response.header = some told ∧ expectedResponseOp asked.op = some told.op ∧
    asked.sequence = told.sequence ∧ asked.group = told.group ∧ asked.command = told.command

variable {p : McumgrSmpParser}

theorem key_at {i : Nat} {r : SmpRecord} (h : p.records[i]? = some r) :
    p.ledger.keys[i]? = some r.key := by
  simp [ledger, h]

theorem record_at {i : Nat} {k : RecordKey} (h : p.ledger.keys[i]? = some k) :
    ∃ r, p.records[i]? = some r ∧ r.key = k := by
  simpa [ledger] using h

section

variable {p : McumgrSmpParser}

section

variable (h : Balanced p.ledger)
include h

/-- The request that a response has been matched to, by its place. -/
theorem Balanced.request_of {i q : Nat} {response : SmpRecord}
    (hi : p.records[i]? = some response) (hq : response.requestId = some q) :
    ∃ j request, q = j + 1 ∧ p.records[j]? = some request ∧ request.responseId = some (i + 1) ∧
      response.AnswersTo request := by
  obtain ⟨j, k, hj, hk, hs, hanswers⟩ := h.requestId i _ q (key_at hi) hq
  obtain ⟨request, hrequest, rfl⟩ := record_at hk
  exact ⟨j, request, hj, hrequest, hs, hanswers⟩

theorem Balanced.response_of {j s : Nat} {request : SmpRecord} (hj : p.records[j]? = some request)
    (hs : request.responseId = some s) :
    ∃ i response, s = i + 1 ∧ p.records[i]? = some response ∧
      response.requestId = some (j + 1) := by
  obtain ⟨i, k, hi, hk, hq⟩ := h.responseId j _ s (key_at hj) hs
  obtain ⟨response, hresponse, rfl⟩ := record_at hk
  exact ⟨i, response, hi, hresponse, hq⟩

theorem Balanced.id_at {i : Nat} {r : SmpRecord} (hi : p.records[i]? = some r) :
    r.id = i + 1 := h.ids i _ (key_at hi)

theorem Balanced.ids_nodup : (p.records.map (·.id)).Nodup := by
  have hids : p.records.map (·.id) = (range p.records.length).map (· + 1) := by
    apply ext_getElem?
    intro i
    rw [getElem?_map, getElem?_map]
    rcases Nat.lt_or_ge i p.records.length with hlt | hge
    · have hi := getElem?_eq_getElem hlt
      rw [hi, getElem?_range hlt]
      exact congrArg some (h.id_at hi)
    · rw [getElem?_eq_none hge, getElem?_eq_none (by simpa using hge)]
      rfl
  rw [hids]
  exact nodup_range.map fun a b hab => Nat.succ.inj hab

theorem Balanced.request_unique {i i' q : Nat} {a b : SmpRecord} (ha : p.records[i]? = some a)
    (hb : p.records[i']? = some b) (hqa : a.requestId = some q) (hqb : b.requestId = some q) :
    i = i' := by
  obtain ⟨j, request, hj, hrequest, hs, _⟩ := h.request_of ha hqa
  obtain ⟨j', request', hj', hrequest', hs', _⟩ := h.request_of hb hqb
  obtain rfl : j = j' := by omega
  rw [hrequest, some.injEq] at hrequest'
  rw [← hrequest', hs, some.injEq] at hs'
  omega

theorem Balanced.response_unique {j j' s : Nat} {a b : SmpRecord} (ha : p.records[j]? = some a)
    (hb : p.records[j']? = some b) (hsa : a.responseId = some s) (hsb : b.responseId = some s) :
    j = j' := by
  obtain ⟨i, response, hi, hresponse, hq⟩ := h.response_of ha hsa
  obtain ⟨i', response', hi', hresponse', hq'⟩ := h.response_of hb hsb
  obtain rfl : i = i' := by omega
  rw [hresponse, some.injEq] at hresponse'
  rw [← hresponse', hq, some.injEq] at hq'
  omega

end

end

namespace McumgrSmpParser

theorem setState_pending (p : McumgrSmpParser) (d : Direction) (s : DirectionState) :
    (p.setState d s).pendingRequests = p.pendingRequests := by
  cases d <;> rfl

theorem flushConsole_pending (p : McumgrSmpParser) (d : Direction) (now : Int) :
    (p.flushConsole d now).1.pendingRequests = p.pendingRequests := by
  unfold flushConsole
  simp only
  split
  · rfl
  · split_ifs
    · exact setState_pending _ _ _
    · exact setState_pending _ _ _
    · rfl

theorem flushRaw_pending (p : McumgrSmpParser) (d : Direction) (now : Int) :
    (p.flushRaw d now).1.pendingRequests = p.pendingRequests := by
  unfold flushRaw
  simp only
  split_ifs
  · exact setState_pending _ _ _
  · rfl

theorem expirePendingRequests_pending (p : McumgrSmpParser) (now : Int) :
    (p.expirePendingRequests now).pendingRequests =
      p.pendingRequests.filter fun e => now < e.expiresAt :=
  congrArg Ledger.pending (ledger_expire p now)

/-- What a flush leaves in the table is what has not expired. -/
theorem flushExpired_pending (p : McumgrSmpParser) (now : Int) :
    (p.flushExpired now).1.pendingRequests =
      p.pendingRequests.filter fun e => now < e.expiresAt := by
  unfold flushExpired
  simp only [expirePendingRequests_pending, flushRaw_pending, flushConsole_pending]

end McumgrSmpParser

/-- In every run the table stays small, requests and responses are paired one to one with a
request on the other side that they answer, and a request that has come into the table is still
there or has left it once. -/
theorem correlation_one_to_one (runtime : Runtime) (config : McumgrSmpParserConfig)
    (events : List Event) :
    let p := run (step runtime) (.new config) events
    p.pendingRequests.length ≤ DEFAULT_SMP_MAX_PENDING_REQUESTS ∧
    (p.records.map (·.id)).Nodup ∧
    (∀ response ∈ p.records, ∀ q, response.requestId = some q →
      ∃ request ∈ p.records, request.id = q ∧ request.responseId = some response.id ∧
        response.AnswersTo request) ∧
    (∀ request ∈ p.records, ∀ s, request.responseId = some s →
      ∃ response ∈ p.records, response.id = s ∧ response.requestId = some request.id) ∧
    (∀ a ∈ p.records, ∀ b ∈ p.records, a.requestId ≠ none → a.requestId = b.requestId → a = b) ∧
    (∀ a ∈ p.records, ∀ b ∈ p.records, a.responseId ≠ none → a.responseId = b.responseId →
      a = b) ∧
    p.admitted.Nodup ∧
    p.admitted.Perm (p.departed.map Prod.fst ++ p.pendingRequests.map (·.record)) ∧
    (∀ j i, (j, .answered i) ∈ p.departed →
      ∃ request, p.records[j]? = some request ∧ request.responseId = some (i + 1)) ∧
    ∀ now, (∀ e ∈ p.pendingRequests, e.expiresAt ≤ now) →
      (p.flushExpired now).1.pendingRequests = [] := by
  intro p
  have hsound : p.Sound := run_invariant (fun q e h => sound_step q e h) (sound_new config) events
  have h : Balanced p.ledger := hsound.1
  refine ⟨hsound.2, h.ids_nodup, ?_, ?_, ?_, ?_, h.admitted_nodup, h.balance, ?_, ?_⟩
  · intro response hmem q hq
    obtain ⟨i, hi⟩ := mem_iff_getElem?.1 hmem
    obtain ⟨j, request, hj, hrequest, hs, hanswers⟩ := h.request_of hi hq
    refine ⟨request, mem_of_getElem? hrequest, ?_, ?_, hanswers⟩
    · rw [h.id_at hrequest, hj]
    · rw [hs, h.id_at hi]
  · intro request hmem s hs
    obtain ⟨j, hj⟩ := mem_iff_getElem?.1 hmem
    obtain ⟨i, response, hi, hresponse, hq⟩ := h.response_of hj hs
    refine ⟨response, mem_of_getElem? hresponse, ?_, ?_⟩
    · rw [h.id_at hresponse, hi]
    · rw [hq, h.id_at hj]
  · intro a ha b hb hsome hsame
    obtain ⟨i, hi⟩ := mem_iff_getElem?.1 ha
    obtain ⟨i', hi'⟩ := mem_iff_getElem?.1 hb
    obtain ⟨q, hq⟩ := ne_none_iff_exists'.1 hsome
    rw [h.request_unique hi hi' hq (hsame ▸ hq), hi', some.injEq] at hi
    exact hi.symm
  · intro a ha b hb hsome hsame
    obtain ⟨j, hj⟩ := mem_iff_getElem?.1 ha
    obtain ⟨j', hj'⟩ := mem_iff_getElem?.1 hb
    obtain ⟨s, hs⟩ := ne_none_iff_exists'.1 hsome
    rw [h.response_unique hj hj' hs (hsame ▸ hs), hj', some.injEq] at hj
    exact hj.symm
  · intro j i hji
    obtain ⟨k, hk, hs⟩ := h.answered j i hji
    obtain ⟨request, hrequest, rfl⟩ := record_at hk
    exact ⟨request, hrequest, hs⟩
  · intro now hexpired
    rw [flushExpired_pending, filter_eq_nil_iff]
    intro e he
    have hle := hexpired e he
    simpa using hle

end bbcom.smp
