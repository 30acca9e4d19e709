-- The books of the export sessions (`session.rs`): what each call has in hand, and how it adds up
-- with what the manager keeps.
import Bbcom.ExportSessions
import Bbcom.Lib.Histories
import Bbcom.Lib.Runs

open bbcom.histories

namespace bbcom.export_session

open List ExportSessionManager Option

/-! ## What calls hold -/

/-- `id` is a reserved id and `fresh` one without a session. The others are about a session: its
id, a clone of its `Arc` (`birth` before it is in the table), the entry of its temp file not yet
made or still to be released, its place in the table still to be cleared, the right to write of a
finish, and its lock, of an append or behind a seal. -/
inductive Token
  | slot
  | target (identity : String)
  | id (id : String)
  | fresh (id : String)
  | name (session : Nat) (id : String)
  | arc (session : Nat)
  | birth (session : Nat)
  | unlisted (session : Nat)
  | duty (session : Nat)
  | entry (session : Nat)
  | pen (session : Nat)
  | lock (session : Nat)
  | shut (session : Nat)
  deriving DecidableEq

/-- A candidate of a sweep. -/
def candidateTokens (candidate : String × Nat) : List Token :=
  [.arc candidate.2, .name candidate.2 candidate.1]

def CloseStep.holds (session : Nat) : CloseStep → List Token
  | removeCurrent => [.entry session]
  | removeTemp => []
  | unlistTemp => [.duty session]

def Call.holds : Call → List Token
  | sweeping _ _ rest expired => rest.flatMap candidateTokens ++ expired.map .duty
  | expiring _ _ id session rest expired =>
    [.arc session, .name session id, .entry session, .shut session, .duty session] ++
      (rest.flatMap candidateTokens ++ expired.map .duty)
  | disposing _ expired => expired.map .duty
  | disposed _ session rest => .duty session :: rest.map .duty
  | canonicalizing _ => [.slot]
  | snapshotting _ identity | reconciling _ identity _ | naming _ identity _ =>
    [.slot, .target identity]
  | creating _ identity id | initializing _ identity id | discarding _ identity id
  | undoing _ identity id => [.slot, .target identity, .id id, .fresh id]
  | listing id session => [.birth session, .name session id, .unlisted session, .id id]
  | inserting id session => [.birth session, .name session id, .duty session, .id id]
  | unreserving id session => [.arc session, .id id]
  | appendWaits session _ _ _ => [.arc session]
  | appending session _ _ _ _ => [.arc session, .lock session]
  | finishWaits id session | abortWaits id session => [.arc session, .name session id]
  | flushing id session _ _ | syncing id session _ | replacing id session _
  | syncingParent id session _ =>
    [.arc session, .name session id, .entry session, .duty session, .pen session]
  | closing id session steps _ =>
    [.arc session, .name session id] ++ steps.flatMap (CloseStep.holds session)
  | returned => []

/-! ## What has happened to a session -/

def Happening.isListed (session : Nat) : Happening → Bool
  | tempListed n => n == session
  | _ => false

def Happening.isReleased (session : Nat) : Happening → Bool
  | tempReleased n => n == session
  | _ => false

def Happening.isSealed (session : Nat) : Happening → Bool
  | .sealed n => n == session
  | _ => false

def Happening.isSlotTaken : Happening → Bool
  | slotTaken => true
  | _ => false

def Happening.isSlotReleased : Happening → Bool
  | slotReleased => true
  | _ => false

def Happening.isReserved (identity : String) : Happening → Bool
  | targetReserved i => i == identity
  | _ => false

def Happening.isTargetReleased (identity : String) : Happening → Bool
  | targetReleased i => i == identity
  | _ => false

/-- The numbers of one session. -/
structure Tally where
  table : Nat := 0
  arcs : Nat := 0
  births : Nat := 0
  unlisted : Nat := 0
  duties : Nat := 0
  entries : Nat := 0
  pens : Nat := 0
  locks : Nat := 0
  shuts : Nat := 0
  sealed : Nat := 0
  listed : Nat := 0
  released : Nat := 0

def tally (s : ExportSessionManager) (tokens : List Token) (n : Nat) : Tally where
  table := (s.table.map Prod.snd).count n
  arcs := tokens.count (.arc n)
  births := tokens.count (.birth n)
  unlisted := tokens.count (.unlisted n)
  duties := tokens.count (.duty n)
  entries := tokens.count (.entry n)
  pens := tokens.count (.pen n)
  locks := tokens.count (.lock n)
  shuts := tokens.count (.shut n)
  sealed := s.log.countP (Happening.isSealed n)
  listed := s.log.countP (Happening.isListed n)
  released := s.log.countP (Happening.isReleased n)

/-- A session is in the table and not terminal. -/
def openCount (table : Nat) (terminal : Bool) : Nat := if terminal then 0 else table

/-- The numbers of a session go with its state and with the entries of its temp file. -/
structure Fair (c : Tally) (strong : Nat) (terminal locked : Bool) (temps : Nat) : Prop where
  strong : strong = c.table + c.arcs + c.births
  births : 0 < c.births → c.births = 1 ∧ c.arcs = 0 ∧ c.table = 0 ∧ terminal = false
  unlisted : 0 < c.unlisted → c.unlisted = 1 ∧ c.duties = 0 ∧ c.listed = 0
  begun : terminal = false → 0 < c.table + c.births
  entries : terminal = true → c.table ≤ c.entries
  open_ : terminal = false → c.entries = 0 ∧ c.pens = 0 ∧ c.sealed = 0
  sealed : 0 < c.sealed → c.pens = 0
  locks : c.locks + c.shuts = locked.toNat
  ended : terminal = true → c.locks = 0
  temp : temps = openCount c.table terminal + c.duties
  listed : c.listed = c.released + temps
  listedOnce : c.listed ≤ 1

/-- The session still has a slot and a target. -/
def ExportSession.live (session : ExportSession) : Bool := decide (0 < session.strong)

/-- What is kept of the sessions. -/
structure Rolls (s : ExportSessionManager) (tokens : List Token) : Prop where
  blank : ∀ n, s.sessions.length ≤ n → tally s tokens n = {}
  fair : ∀ n session, s.sessions[n]? = some session →
    Fair (tally s tokens n) session.strong session.terminal session.locked
      (s.activeTemps.count session.temp)
  keys : (s.table.map Prod.fst).Nodup
  keyed : ∀ entry ∈ s.table, ∃ session, s.sessions[entry.2]? = some session ∧
    session.id = entry.1
  names : ∀ n id, .name n id ∈ tokens → ∃ session, s.sessions[n]? = some session ∧
    session.id = id
  tempsNodup : s.activeTemps.Nodup
  tempsKnown : ∀ temp ∈ s.activeTemps, ∃ session ∈ s.sessions, session.temp = temp
  drawn : ∀ session ∈ s.sessions, session.id ∈ s.drawn
  distinct : (s.sessions.map (·.id)).Nodup
  fresh : ∀ id, .fresh id ∈ tokens → tokens.count (.fresh id) = 1 ∧ id ∈ s.drawn ∧
    ∀ session ∈ s.sessions, session.id ≠ id

/-- What is kept of the slots, the targets and the reserved ids. -/
structure House (s : ExportSessionManager) (tokens : List Token) : Prop where
  slots : s.permitsTaken = tokens.count .slot + s.sessions.countP (·.live)
  slotLog : s.log.countP Happening.isSlotTaken =
    s.log.countP Happening.isSlotReleased + s.permitsTaken
  targetsNodup : s.activeTargets.Nodup
  targets : ∀ identity, s.activeTargets.count identity =
    tokens.count (.target identity) +
      s.sessions.countP fun session => session.live && session.identity == identity
  targetLog : ∀ identity, s.log.countP (Happening.isReserved identity) =
    s.log.countP (Happening.isTargetReleased identity) + s.activeTargets.count identity
  ids : ∀ id, s.reservedIds.count id = tokens.count (.id id)

/-- Nothing is written by an append or a finish behind a seal of its session. -/
def Silent (past : List Happening) : Happening → Prop
  | .wrote n => past.countP (Happening.isSealed n) = 0
  | _ => True

instance (past : List Happening) : DecidablePred (Silent past) := fun happening =>
  match happening with
  | .wrote n => inferInstanceAs (Decidable (past.countP (Happening.isSealed n) = 0))
  | .slotTaken | .slotReleased | .targetReserved _ | .targetReleased _ | .tempListed _
  | .tempReleased _ | .sealed _ | .replaced _ _ _ | .finished _ _ _ | .aborted _ | .expired _ =>
    .isTrue trivial

structure Books (s : ExportSessionManager) (tokens : List Token) : Prop where
  rolls : Rolls s tokens
  house : House s tokens
  silent : Lawful Silent s.log

theorem books_new : Books {} [] where
  rolls :=
    { blank n _ := by simp [tally]
      fair n session h := by simp at h
      keys := .nil
      keyed _ h := absurd h not_mem_nil
      names _ _ h := absurd h not_mem_nil
      tempsNodup := .nil
      tempsKnown _ h := absurd h not_mem_nil
      drawn _ h := absurd h not_mem_nil
      distinct := .nil
      fresh _ h := absurd h not_mem_nil }
  house := ⟨rfl, rfl, .nil, fun _ => rfl, fun _ => rfl, fun _ => rfl⟩
  silent := trivial

variable {s : ExportSessionManager} {tokens : List Token}

variable {other : List Token} {session : ExportSession} {s' : ExportSessionManager}
  {happening : Happening}

theorem tally_perm (h : tokens.Perm other) (n : Nat) : tally s tokens n = tally s other n := by
  simp only [tally, h.count_eq]

theorem Rolls.perm (r : Rolls s tokens) (h : tokens.Perm other) : Rolls s other :=
  { r with
    blank n hn := tally_perm h n ▸ r.blank n hn
    fair n session hn := tally_perm h n ▸ r.fair n session hn
    names n id hn := r.names n id (h.mem_iff.2 hn)
    fresh id hid := by
      obtain ⟨hone, hrest⟩ := r.fresh id (h.mem_iff.2 hid)
      exact ⟨h.count_eq (.fresh id) ▸ hone, hrest⟩ }

theorem House.perm (b : House s tokens) (h : tokens.Perm other) : House s other :=
  { b with
    slots := h.count_eq .slot ▸ b.slots
    targets identity := h.count_eq (.target identity) ▸ b.targets identity
    ids id := h.count_eq (.id id) ▸ b.ids id }

theorem Books.perm (b : Books s tokens) (h : tokens.Perm other) : Books s other :=
  ⟨b.rolls.perm h, b.house.perm h, b.silent⟩

/-- Where a call stands does not matter to the books. -/
theorem Books.goOn (b : Books s tokens) (call : Nat) (next : Call) :
    Books (s.goOn call next) tokens :=
  ⟨{ b.rolls with }, { b.house with }, b.silent⟩

/-! ## One session changes -/

variable {α : Type*}

theorem getElem?_modify_some {l : List α} {n m : Nat} {f : α → α} {x : α}
    (h : (l.modify n f)[m]? = some x) : ∃ y, l[m]? = some y ∧ x = if m = n then f y else y := by
  rw [getElem?_modify, Option.map_eq_map, Option.map_eq_some_iff] at h
  obtain ⟨y, hy, rfl⟩ := h
  refine ⟨y, hy, ?_⟩
  by_cases hsame : n = m
  · simp [hsame]
  · simp [hsame, Ne.symm hsame]

theorem countP_modify {l : List α} {n : Nat} {f : α → α} {x : α} (p : α → Bool) (h : l[n]? = some x)
    :
    (l.modify n f).countP p + (p x).toNat = l.countP p + (p (f x)).toNat := by
  induction l generalizing n with
  | nil => simp at h
  | cons y l ih =>
    cases n with
    | zero =>
      rw [getElem?_cons_zero, some.injEq] at h
      subst h
      rw [modify_zero_cons, countP_cons, countP_cons]
      cases p y <;> cases p (f y) <;> simp
    | succ n =>
      rw [getElem?_cons_succ] at h
      have hrest := ih h
      rw [modify_succ_cons, countP_cons, countP_cons]
      omega

theorem countP_modify_same {l : List α} {n : Nat} {f : α → α} {x : α} (p : α → Bool)
    (h : l[n]? = some x) (hsame : p (f x) = p x) : (l.modify n f).countP p = l.countP p := by
  have hcount := countP_modify (f := f) p h
  rw [hsame] at hcount
  omega

theorem map_modify_same {β : Type*} {l : List α} {n : Nat} {f : α → α} {x : α} (g : α → β)
    (h : l[n]? = some x) (hsame : g (f x) = g x) : (l.modify n f).map g = l.map g := by
  apply ext_getElem?
  intro m
  rw [getElem?_map, getElem?_map, getElem?_modify]
  by_cases hm : n = m
  · subst hm
    simp [h, hsame]
  · simp [hm]

theorem mem_modify {l : List α} {n : Nat} {f : α → α} {x y : α} (h : l[n]? = some x)
    (hy : y ∈ l.modify n f) : y ∈ l ∨ y = f x := by
  obtain ⟨m, hm⟩ := mem_iff_getElem?.1 hy
  obtain ⟨z, hz, rfl⟩ := getElem?_modify_some hm
  split
  · rename_i hsame
    rw [hsame, h] at hz
    cases hz
    exact .inr rfl
  · exact .inl (mem_of_getElem? hz)

/-- Sessions have ids of their own, and with them temp files of their own. -/
theorem Rolls.id_injective (r : Rolls s tokens) {n m : Nat} {other : ExportSession}
    (hn : s.sessions[n]? = some session) (hm : s.sessions[m]? = some other)
    (h : session.id = other.id) : n = m := by
  have hlt : n < (s.sessions.map (·.id)).length := by
    rw [length_map]
    exact (List.getElem?_eq_some_iff.1 hn).1
  apply (List.getElem?_inj hlt r.distinct).1
  rw [List.getElem?_map, List.getElem?_map, hn, hm]
  exact congrArg some h

theorem Rolls.temp_injective (r : Rolls s tokens) {n m : Nat} {other : ExportSession}
    (hn : s.sessions[n]? = some session) (hm : s.sessions[m]? = some other)
    (h : session.temp = other.temp) : n = m :=
  r.id_injective hn hm (congrArg TempPath.id h)

/-- What a session is known by does not change. -/
structure SameFace (session other : ExportSession) : Prop where
  id : other.id = session.id
  request : other.request = session.request
  identity : other.identity = session.identity

theorem SameFace.temp {other : ExportSession} (h : SameFace session other) :
    other.temp = session.temp := by
  unfold ExportSession.temp
  rw [h.id, h.request]

/-- The table and the temp files of the other sessions stay. -/
structure SameOthers (s s' : ExportSessionManager) (n : Nat) (session : ExportSession) : Prop where
  keys : (s'.table.map Prod.fst).Nodup
  entries : ∀ entry ∈ s'.table, entry ∈ s.table ∨ entry = (session.id, n)
  table : ∀ m, m ≠ n → (s'.table.map Prod.snd).count m = (s.table.map Prod.snd).count m
  tempsNodup : s'.activeTemps.Nodup
  temps : ∀ temp, temp ≠ session.temp → s'.activeTemps.count temp = s.activeTemps.count temp

/-- One session changes, with its tokens and its place in the table. -/
theorem Rolls.update {tokens' : List Token} (r : Rolls s tokens) {n : Nat}
    (hn : s.sessions[n]? = some session) {f : ExportSession → ExportSession}
    (hsessions : s'.sessions = s.sessions.modify n f) (hface : SameFace session (f session))
    (hdrawn : s'.drawn = s.drawn) (hsame : SameOthers s s' n session)
    (hfresh : ∀ id, tokens'.count (.fresh id) = tokens.count (.fresh id))
    (hnames : ∀ m id, .name m id ∈ tokens' → ∃ t, s.sessions[m]? = some t ∧ t.id = id)
    (hothers : ∀ m, m ≠ n → tally s' tokens' m = tally s tokens m)
    (hfair : Fair (tally s' tokens' n) (f session).strong (f session).terminal (f session).locked
      (s'.activeTemps.count session.temp)) : Rolls s' tokens' := by
  have hlength : n < s.sessions.length := (List.getElem?_eq_some_iff.1 hn).1
  have hnow : s'.sessions[n]? = some (f session) := by
    rw [hsessions, List.getElem?_modify]
    simp [hn]
  have hkept : ∀ (m : Nat) (t : ExportSession), s.sessions[m]? = some t →
      ∃ t' : ExportSession, s'.sessions[m]? = some t' ∧ t'.id = t.id ∧ t'.temp = t.temp := by
    intro m t hm
    by_cases hthis : m = n
    · rw [hthis, hn] at hm
      cases hm
      exact ⟨_, hthis ▸ hnow, hface.id, hface.temp⟩
    · refine ⟨t, ?_, rfl, rfl⟩
      rw [hsessions, List.getElem?_modify]
      simp [Ne.symm hthis, hm]
  exact
    { blank m hm := by
        rw [hsessions, length_modify] at hm
        rw [hothers m (by omega)]
        exact r.blank m hm
      fair m t hm := by
        rw [hsessions] at hm
        obtain ⟨t₀, ht₀, rfl⟩ := getElem?_modify_some hm
        split
        · rename_i hthis
          rw [hthis, hn] at ht₀
          cases ht₀
          rw [hface.temp, hthis]
          exact hfair
        · rename_i hother
          rw [hothers m hother, hsame.temps _ fun h => hother (r.temp_injective ht₀ hn h)]
          exact r.fair m t₀ ht₀
      keys := hsame.keys
      keyed entry hentry := by
        obtain hbefore | rfl := hsame.entries entry hentry
        · obtain ⟨t, ht, hid⟩ := r.keyed entry hbefore
          obtain ⟨t', ht', hid', -⟩ := hkept _ t ht
          exact ⟨t', ht', hid'.trans hid⟩
        · exact ⟨f session, hnow, hface.id⟩
      names m id hm := by
        obtain ⟨t, ht, hid⟩ := hnames m id hm
        obtain ⟨t', ht', hid', -⟩ := hkept m t ht
        exact ⟨t', ht', hid'.trans hid⟩
      tempsNodup := hsame.tempsNodup
      tempsKnown temp htemp := by
        by_cases hthis : temp = session.temp
        · exact ⟨_, mem_of_getElem? hnow, hface.temp.trans hthis.symm⟩
        rw [← count_pos_iff, hsame.temps temp hthis, count_pos_iff] at htemp
        obtain ⟨t, ht, htt⟩ := r.tempsKnown temp htemp
        obtain ⟨m, hm⟩ := mem_iff_getElem?.1 ht
        obtain ⟨t', ht', -, htemp'⟩ := hkept m t hm
        exact ⟨t', mem_of_getElem? ht', htemp'.trans htt⟩
      drawn t ht := by
        rw [hdrawn]
        rw [hsessions] at ht
        obtain hold | rfl := mem_modify hn ht
        · exact r.drawn t hold
        · rw [hface.id]
          exact r.drawn session (mem_of_getElem? hn)
      distinct := by
        rw [hsessions, map_modify_same _ hn hface.id]
        exact r.distinct
      fresh id hid := by
        have hbefore : .fresh id ∈ tokens := by
          rw [← count_pos_iff, ← hfresh id]
          exact count_pos_iff.2 hid
        obtain ⟨hone, hin, hno⟩ := r.fresh id hbefore
        refine ⟨(hfresh id).trans hone, hdrawn ▸ hin, fun t ht => ?_⟩
        rw [hsessions] at ht
        obtain hold | rfl := mem_modify hn ht
        · exact hno t hold
        · rw [hface.id]
          exact hno session (mem_of_getElem? hn) }

/-! ## Tokens and happenings one by one -/

def Tally.add (c : Tally) (n : Nat) : Token → Tally
  | .arc m => if m = n then { c with arcs := c.arcs + 1 } else c
  | .birth m => if m = n then { c with births := c.births + 1 } else c
  | .unlisted m => if m = n then { c with unlisted := c.unlisted + 1 } else c
  | .duty m => if m = n then { c with duties := c.duties + 1 } else c
  | .entry m => if m = n then { c with entries := c.entries + 1 } else c
  | .pen m => if m = n then { c with pens := c.pens + 1 } else c
  | .lock m => if m = n then { c with locks := c.locks + 1 } else c
  | .shut m => if m = n then { c with shuts := c.shuts + 1 } else c
  | _ => c

open Tally

theorem tally_cons (token : Token) (n : Nat) :
    tally s (token :: tokens) n = (tally s tokens n).add n token := by
  have hcount : ∀ t : Token,
      (token :: tokens).count t = tokens.count t + if token = t then 1 else 0 :=
    fun t => by simp only [count_cons, beq_iff_eq]
  cases token with
  | arc m | birth m | unlisted m | duty m | entry m | pen m | lock m | shut m =>
    by_cases h : m = n <;> simp [tally, add, hcount, h]
  | _ => simp [tally, add, hcount]

def Tally.note (c : Tally) (n : Nat) : Happening → Tally
  | .sealed m => if m = n then { c with sealed := c.sealed + 1 } else c
  | .tempListed m => if m = n then { c with listed := c.listed + 1 } else c
  | .tempReleased m => if m = n then { c with released := c.released + 1 } else c
  | _ => c

theorem tally_record (happening : Happening) (n : Nat) :
    tally (s.record happening) tokens n = (tally s tokens n).note n happening := by
  cases happening with
  | sealed m =>
    by_cases h : m = n <;>
      simp [tally, note, record, Happening.isSealed, Happening.isListed, Happening.isReleased, h]
  | tempListed m =>
    by_cases h : m = n <;>
      simp [tally, note, record, Happening.isSealed, Happening.isListed, Happening.isReleased, h]
  | tempReleased m =>
    by_cases h : m = n <;>
      simp [tally, note, record, Happening.isSealed, Happening.isListed, Happening.isReleased, h]
  | _ =>
    simp [tally, note, record, Happening.isSealed, Happening.isListed, Happening.isReleased]

@[simp] theorem tally_modify (session n : Nat) (f : ExportSession → ExportSession) :
    tally (s.modify session f) tokens n = tally s tokens n := rfl

/-- The session that a token is about. -/
def Token.about : Token → Option Nat
  | slot | target _ | id _ | fresh _ => none
  | name n _ | arc n | birth n | unlisted n | duty n | entry n | pen n | lock n | shut n => some n

theorem Tally.add_other {token : Token} {n m : Nat} (h : token.about = some n) (hm : m ≠ n)
    (c : Tally) : c.add m token = c := by
  cases token with
  | arc k | birth k | unlisted k | duty k | entry k | pen k | lock k | shut k =>
    simp only [Token.about, some.injEq] at h
    simp [add, h, Ne.symm hm]
  | _ => rfl

/-- The session that a happening is about. -/
def Happening.about : Happening → Option Nat
  | slotTaken | slotReleased | targetReserved _ | targetReleased _ => none
  | tempListed n | tempReleased n | .sealed n | wrote n | replaced n _ _ | finished n _ _
  | aborted n | expired n => some n

theorem Happening.about_of_isSealed {n : Nat} (h : happening.isSealed n = true) :
    happening.about = some n := by
  cases happening with
  | sealed m => exact congrArg some (beq_iff_eq.1 h)
  | _ => cases h

theorem Happening.about_of_isListed {n : Nat} (h : happening.isListed n = true) :
    happening.about = some n := by
  cases happening with
  | tempListed m => exact congrArg some (beq_iff_eq.1 h)
  | _ => cases h

theorem Happening.about_of_isReleased {n : Nat} (h : happening.isReleased n = true) :
    happening.about = some n := by
  cases happening with
  | tempReleased m => exact congrArg some (beq_iff_eq.1 h)
  | _ => cases h

theorem Happening.about_of_isSlotTaken (h : happening.isSlotTaken = true) :
    happening.about = none := by
  cases happening with
  | slotTaken => rfl
  | _ => cases h

theorem Happening.about_of_isSlotReleased (h : happening.isSlotReleased = true) :
    happening.about = none := by
  cases happening with
  | slotReleased => rfl
  | _ => cases h

variable {identity : String}

theorem Happening.about_of_isReserved (h : happening.isReserved identity = true) :
    happening.about = none := by
  cases happening with
  | targetReserved => rfl
  | _ => cases h

theorem Happening.about_of_isTargetReleased (h : happening.isTargetReleased identity = true) :
    happening.about = none := by
  cases happening with
  | targetReleased => rfl
  | _ => cases h

/-- The tokens in front of the others are about the session `n`. -/
def AllAbout (n : Nat) (front : List Token) : Prop := ∀ token ∈ front, token.about = some n

theorem AllAbout.nil (n : Nat) : AllAbout n [] := fun _ h => absurd h not_mem_nil

theorem AllAbout.cons {n : Nat} {token : Token} {front : List Token} (h : token.about = some n)
    (hfront : AllAbout n front) : AllAbout n (token :: front) := by
  intro other hother
  rcases mem_cons.1 hother with rfl | hmem
  · exact h
  · exact hfront other hmem

variable {front : List Token}

theorem tally_about {n : Nat} (h : AllAbout n front) {m : Nat} (hm : m ≠ n) :
    tally s (front ++ tokens) m = tally s tokens m := by
  induction front with
  | nil => rfl
  | cons token front ih =>
    rw [cons_append, tally_cons, add_other (h token mem_cons_self) hm]
    exact ih fun other hother => h other (mem_cons_of_mem _ hother)

theorem count_about {n : Nat} (h : AllAbout n front) {token : Token} (htoken : token.about = none) :
    (front ++ tokens).count token = tokens.count token := by
  have hfront : front.count token = 0 := by
    rw [count_eq_zero]
    intro hmem
    have habout := h token hmem
    rw [htoken] at habout
    cases habout
  rw [count_append, hfront, Nat.zero_add]

theorem tally_news {n m : Nat} (hm : m ≠ n) {news : List Happening}
    (h : ∀ happening ∈ news, happening.about = some n) (hlog : s'.log = news ++ s.log)
    (htable : (s'.table.map Prod.snd).count m = (s.table.map Prod.snd).count m) :
    tally s' tokens m = tally s tokens m := by
  have hnote : ∀ p : Happening → Bool, (∀ happening, p happening = true →
      happening.about = some m) → (news ++ s.log).countP p = s.log.countP p := by
    intro p hp
    have hnews : news.countP p = 0 := by
      rw [countP_eq_zero]
      intro happening hmem hholds
      have habout := h happening hmem
      rw [hp happening hholds, some.injEq] at habout
      exact hm habout
    rw [countP_append, hnews, Nat.zero_add]
  have hsealed := hnote _ fun _ => Happening.about_of_isSealed
  have hlisted := hnote _ fun _ => Happening.about_of_isListed
  have hreleased := hnote _ fun _ => Happening.about_of_isReleased
  simp only [tally, hlog, htable, hsealed, hlisted, hreleased]

/-! ## What is exchanged at one session -/

variable {n : Nat} {session : ExportSession}

theorem Rolls.sameOthers (r : Rolls s tokens) (htable : s'.table = s.table)
    (htemps : s'.activeTemps = s.activeTemps) (n : Nat) (session : ExportSession) :
    SameOthers s s' n session where
  keys := htable ▸ r.keys
  entries _ h := .inl (htable ▸ h)
  table _ _ := by rw [htable]
  tempsNodup := htemps ▸ r.tempsNodup
  temps _ _ := by rw [htemps]

/-- A call gives the tokens of `front` for those of `back`. -/
theorem Rolls.exchange (front back : List Token) (news : List Happening)
    (f : ExportSession → ExportSession) (r : Rolls s (front ++ tokens))
    (hn : s.sessions[n]? = some session) (hsessions : s'.sessions = s.sessions.modify n f)
    (hface : SameFace session (f session)) (hdrawn : s'.drawn = s.drawn)
    (hothers : SameOthers s s' n session) (hlog : s'.log = news ++ s.log)
    (hnews : ∀ happening ∈ news, happening.about = some n) (hfront : AllAbout n front)
    (hback : AllAbout n back) (hnames : ∀ id, .name n id ∈ back → id = session.id)
    (hfair : Fair (tally s' (back ++ tokens) n) (f session).strong (f session).terminal
      (f session).locked (s'.activeTemps.count session.temp)) : Rolls s' (back ++ tokens) := by
  refine r.update hn hsessions hface hdrawn hothers ?_ ?_ ?_ hfair
  · intro id
    rw [count_about hback rfl, count_about hfront rfl]
  · intro m id hm
    rcases mem_append.1 hm with hin | hin
    · have hsame : m = n := some.inj (hback _ hin)
      subst hsame
      exact ⟨session, hn, (hnames id hin).symm⟩
    · exact r.names m id (mem_append_right _ hin)
  · intro m hm
    rw [tally_about hback hm, tally_about hfront hm]
    exact tally_news hm hnews hlog (hothers.table m hm)

/-- What is not about one session stays. -/
structure SameHouse (s s' : ExportSessionManager) : Prop where
  permitsTaken : s'.permitsTaken = s.permitsTaken
  reservedIds : s'.reservedIds = s.reservedIds
  activeTargets : s'.activeTargets = s.activeTargets

/-- The house does not see what is exchanged at a session that keeps its slot. -/
theorem House.exchange (front back : List Token) (news : List Happening)
    (f : ExportSession → ExportSession) (b : House s (front ++ tokens))
    (hn : s.sessions[n]? = some session) (hsessions : s'.sessions = s.sessions.modify n f)
    (hface : SameFace session (f session)) (hlive : (f session).live = session.live)
    (hhouse : SameHouse s s') (hlog : s'.log = news ++ s.log)
    (hnews : ∀ happening ∈ news, happening.about = some n) (hfront : AllAbout n front)
    (hback : AllAbout n back) : House s' (back ++ tokens) := by
  have htokens : ∀ token : Token, token.about = none →
      (back ++ tokens).count token = (front ++ tokens).count token := fun token h =>
    (count_about hback h).trans (count_about hfront h).symm
  have hcount : ∀ p : Happening → Bool, (∀ happening, p happening = true →
      happening.about = none) → s'.log.countP p = s.log.countP p := by
    intro p hp
    have hzero : news.countP p = 0 := by
      rw [countP_eq_zero]
      intro happening hmem hholds
      have habout := hnews happening hmem
      rw [hp happening hholds] at habout
      cases habout
    rw [hlog, countP_append, hzero, Nat.zero_add]
  exact
    { slots := by
        rw [hhouse.permitsTaken, hsessions, htokens .slot rfl, countP_modify_same _ hn hlive]
        exact b.slots
      slotLog := by
        rw [hcount _ fun _ => Happening.about_of_isSlotTaken,
          hcount _ fun _ => Happening.about_of_isSlotReleased, hhouse.permitsTaken]
        exact b.slotLog
      targetsNodup := hhouse.activeTargets ▸ b.targetsNodup
      targets identity := by
        rw [hhouse.activeTargets, hsessions, htokens _ rfl, countP_modify_same _ hn]
        · exact b.targets identity
        · rw [hlive, hface.identity]
      targetLog identity := by
        rw [hcount _ fun _ => Happening.about_of_isReserved,
          hcount _ fun _ => Happening.about_of_isTargetReleased, hhouse.activeTargets]
        exact b.targetLog identity
      ids id := by
        rw [hhouse.reservedIds, htokens _ rfl]
        exact b.ids id }

end bbcom.export_session
