-- What a trim does to the frames of a session: it takes them from the front, its result says how
-- many and how many bytes, and what is left fits the limit that it was given.
import Bbcom.SessionFrames

open bbcom.js bbcom.serial bbcom.ordered_map

namespace bbcom.capture

open SerialSession FrameDrop List Option OrderedMap Nat

theorem frameBuffersByteLength_eq (s : SerialSession) :
    frameBuffersByteLength s = framesByteLength s.contents := by
  simp [frameBuffersByteLength, contents]

/-- Frames wait in the paused buffer only while capture is paused. -/
def PausedOnly (s : SerialSession) : Prop := s.pausedFrames ≠ [] → s.capturePaused = true

/-! ## Dropping from the front -/

/-- One session is another without its oldest frames. -/
structure DropsOldest (s s' : SerialSession) (dropped : List DataFrame) : Prop where
  same_id : s'.id = s.id
  same_pause : s'.capturePaused = s.capturePaused
  same_counter : s'.droppedBytes = s.droppedBytes
  contents : s.contents = dropped ++ s'.contents
  paused : s'.pausedFrames <:+ s.pausedFrames

theorem DropsOldest.refl (s : SerialSession) : DropsOldest s s [] :=
  ⟨rfl, rfl, rfl, rfl, suffix_refl _⟩

theorem DropsOldest.trans {a b c : SerialSession} {first second : List DataFrame}
    (h1 : DropsOldest a b first) (h2 : DropsOldest b c second) :
    DropsOldest a c (first ++ second) where
  same_id := h2.same_id.trans h1.same_id
  same_pause := h2.same_pause.trans h1.same_pause
  same_counter := h2.same_counter.trans h1.same_counter
  contents := by rw [h1.contents, h2.contents, append_assoc]
  paused := h2.paused.trans h1.paused

variable {s s' : SerialSession} {frame : DataFrame} {sessions before : List SerialSession}
  {dropped : OrderedMap String FrameDrop} {retainedBytes : Int}

theorem DropsOldest.pausedOnly {dropped : List DataFrame} (h : DropsOldest s s' dropped)
    (hs : PausedOnly s) : PausedOnly s' := by
  intro hne
  rw [h.same_pause]
  apply hs
  rintro hnil
  have hsuffix := h.paused
  rw [hnil, suffix_nil] at hsuffix
  exact hne hsuffix

theorem DropsOldest.bytes {dropped : List DataFrame} (h : DropsOldest s s' dropped) :
    framesByteLength s.contents = framesByteLength dropped + framesByteLength s'.contents := by
  rw [h.contents, framesByteLength_append]

theorem shiftOldest_some (h : shiftOldestSessionFrame s = some (frame, s')) :
    DropsOldest s s' [frame] := by
  unfold shiftOldestSessionFrame at h
  split at h
  · rename_i first frames hframes
    cases h
    exact ⟨rfl, rfl, rfl, by simp [contents, hframes], suffix_refl _⟩
  · rename_i hframes
    split at h
    · rename_i first pausedFrames hpaused
      cases h
      refine ⟨rfl, rfl, rfl, by simp [contents, hframes, hpaused], ?_⟩
      rw [hpaused]
      exact suffix_cons _ _
    · cases h

theorem shiftOldest_none (h : shiftOldestSessionFrame s = none) : s.contents = [] := by
  unfold shiftOldestSessionFrame at h
  split at h
  · cases h
  · rename_i hframes
    split at h
    · cases h
    · rename_i hpaused
      simp [contents, hframes, hpaused]

theorem shiftLive_some (h : shiftLiveFrame s = some (frame, s')) : DropsOldest s s' [frame] := by
  unfold shiftLiveFrame at h
  split at h
  · cases h
  · rename_i first frames hframes
    cases h
    exact ⟨rfl, rfl, rfl, by simp [contents, hframes], suffix_refl _⟩

/-- The books of a drop, with some more frames dropped. -/
def FrameDrop.addAll (drop : FrameDrop) (frames : List DataFrame) : FrameDrop where
  droppedFrames := drop.droppedFrames + frames.length
  droppedBytes := drop.droppedBytes + framesByteLength frames

theorem FrameDrop.add_addAll (drop : FrameDrop) (frame : DataFrame) (frames : List DataFrame) :
    (drop.add frame).addAll frames = drop.addAll (frame :: frames) := by
  simp [add, addAll, add_assoc, add_comm 1]

/-! ## The loops -/

theorem shiftFrames_spec (count : Nat) (s : SerialSession) (drop : FrameDrop) :
    ∃ dropped, DropsOldest s (shiftFrames count s drop).1 dropped ∧
      (shiftFrames count s drop).2 = drop.addAll dropped ∧
      dropped.length = min count s.contents.length := by
  induction count generalizing s drop with
  | zero => exact ⟨[], .refl s, rfl, by simp⟩
  | succ count ih =>
    unfold shiftFrames
    cases hshift : shiftOldestSessionFrame s with
    | none => exact ⟨[], .refl s, rfl, by simp [shiftOldest_none hshift]⟩
    | some shifted =>
      obtain ⟨frame, s'⟩ := shifted
      have hfirst := shiftOldest_some hshift
      obtain ⟨dropped, hrest, hdrop, hlength⟩ := ih s' (drop.add frame)
      refine ⟨frame :: dropped, hfirst.trans hrest, ?_, ?_⟩
      · rw [hdrop, add_addAll]
      · have hcontents := congrArg length hfirst.contents
        simp only [length_append, length_singleton] at hcontents
        simp only [length_cons, hlength]
        omega

/-- A byte trim with enough rounds: what is left fits, or nothing is left. -/
theorem shiftToBytes_spec {shift : SerialSession → Option (DataFrame × SerialSession)}
    (hsome : ∀ s frame s', shift s = some (frame, s') → DropsOldest s s' [frame])
    (maxBytes : Int) (rounds : Nat) (s : SerialSession) (retainedBytes : Int) (drop : FrameDrop)
    (hnone : ∀ s', s'.pausedFrames <:+ s.pausedFrames → shift s' = none → s'.contents = [])
    (hrounds : s.contents.length ≤ rounds) :
    ∃ dropped, DropsOldest s (shiftToBytes shift maxBytes rounds s retainedBytes drop).1 dropped ∧
      (shiftToBytes shift maxBytes rounds s retainedBytes drop).2.1 =
        retainedBytes - framesByteLength dropped ∧
      (shiftToBytes shift maxBytes rounds s retainedBytes drop).2.2 = drop.addAll dropped ∧
      ((shiftToBytes shift maxBytes rounds s retainedBytes drop).2.1 ≤ maxBytes ∨
        (shiftToBytes shift maxBytes rounds s retainedBytes drop).1.contents = []) := by
  induction rounds generalizing s retainedBytes drop with
  | zero =>
    have hempty : s.contents = [] := length_eq_zero_iff.1 (le_zero.1 hrounds)
    exact ⟨[], .refl s, by simp [shiftToBytes], rfl, .inr hempty⟩
  | succ rounds ih =>
    unfold shiftToBytes
    by_cases hfits : retainedBytes ≤ maxBytes
    · rw [if_pos hfits]
      exact ⟨[], .refl s, by simp, rfl, .inl hfits⟩
    · rw [if_neg hfits]
      cases hshift : shift s with
      | none => exact ⟨[], .refl s, by simp, rfl, .inr (hnone s (suffix_refl _) hshift)⟩
      | some shifted =>
        obtain ⟨frame, s'⟩ := shifted
        have hfirst := hsome s frame s' hshift
        have hlength : s'.contents.length ≤ rounds := by
          have hcontents := congrArg length hfirst.contents
          simp only [length_append, length_singleton] at hcontents
          omega
        obtain ⟨dropped, hrest, hretained, hdrop, hend⟩ :=
          ih s' (retainedBytes - frame.data.length) (drop.add frame)
            (fun t ht => hnone t (ht.trans hfirst.paused)) hlength
        refine ⟨frame :: dropped, hfirst.trans hrest, ?_, ?_, hend⟩
        · rw [hretained, framesByteLength_cons]
          push_cast
          ring
        · rw [hdrop, add_addAll]

/-! ## Appending -/

theorem countFrame_fields (s : SerialSession) (frame : DataFrame) :
    (countFrame s frame).id = s.id ∧ (countFrame s frame).frames = s.frames ∧
      (countFrame s frame).pausedFrames = s.pausedFrames ∧
      (countFrame s frame).capturePaused = s.capturePaused ∧
      (countFrame s frame).droppedBytes = s.droppedBytes := by
  unfold countFrame
  cases frame.direction <;> exact ⟨rfl, rfl, rfl, rfl, rfl⟩

theorem pushFrame_contents (hs : PausedOnly s) (frame : DataFrame) :
    (pushFrame s frame).contents = s.contents ++ [frame] := by
  unfold pushFrame contents
  by_cases hp : s.capturePaused = true
  · simp [hp]
  · have hnil : s.pausedFrames = [] := by
      by_contra hne
      exact hp (hs hne)
    simp [hp, hnil]

theorem pushFrame_pausedOnly (hs : PausedOnly s) (frame : DataFrame) :
    PausedOnly (pushFrame s frame) := by
  unfold pushFrame
  split
  · rename_i hp
    exact fun _ => hp
  · exact hs

theorem pushFrame_fields (s : SerialSession) (frame : DataFrame) :
    (pushFrame s frame).id = s.id ∧ (pushFrame s frame).capturePaused = s.capturePaused ∧
      (pushFrame s frame).droppedBytes = s.droppedBytes := by
  unfold pushFrame
  split <;> exact ⟨rfl, rfl, rfl⟩

/-- What an append or a flush leaves: the contents in their order without the oldest frames,
and a result that says which they were. -/
structure Trimmed (whole : List DataFrame) (currentBytes maxBytes : Int) (s s' : SerialSession)
    (trim : FrameBufferTrimResult) (dropped : List DataFrame) : Prop where
  same_id : s'.id = s.id
  same_pause : s'.capturePaused = s.capturePaused
  same_counter : s'.droppedBytes = s.droppedBytes
  contents : whole = dropped ++ s'.contents
  paused_only : PausedOnly s'
  dropped_frames : trim.droppedFrames = dropped.length
  dropped_bytes : trim.droppedBytes = framesByteLength dropped
  retained : trim.retainedBytes = currentBytes - framesByteLength dropped
  fits : trim.retainedBytes ≤ maxBytes ∨ s'.contents = []

theorem trimToCount_spec (pushed : SerialSession) (maxFrames : Nat) :
    ∃ dropped, DropsOldest pushed (trimToCount pushed maxFrames).1 dropped ∧
      (trimToCount pushed maxFrames).2 = addAll {} dropped := by
  unfold trimToCount
  split
  · obtain ⟨dropped, hdrops, hdrop, _⟩ :=
      shiftFrames_spec (targetLength pushed - maxFrames) pushed {}
    exact ⟨dropped, hdrops, hdrop⟩
  · exact ⟨[], .refl _, rfl⟩

theorem appendFrameToSession_spec (hs : PausedOnly s) (frame : DataFrame) (maxFrames : Nat)
    (currentBytes maxBytes : Int) :
    ∃ dropped, Trimmed (s.contents ++ [frame]) (currentBytes + frame.data.length) maxBytes s
      (appendFrameToSession s frame maxFrames currentBytes maxBytes).1
      (appendFrameToSession s frame maxFrames currentBytes maxBytes).2 dropped := by
  obtain ⟨hpid, hppause, hpcounter⟩ := pushFrame_fields s frame
  obtain ⟨first, hfirst, hdrop⟩ := trimToCount_spec (pushFrame s frame) maxFrames
  unfold appendFrameToSession
  generalize trimToCount (pushFrame s frame) maxFrames = counted at hfirst hdrop
  obtain ⟨counted, drop⟩ := counted
  dsimp only at hfirst hdrop ⊢
  subst hdrop
  obtain ⟨second, hsecond, hretained, hsum, hend⟩ := shiftToBytes_spec
    (fun _ _ _ => shiftOldest_some) maxBytes counted.contents.length counted
    (currentBytes + frame.data.length - (addAll {} first).droppedBytes)
    (addAll {} first) (fun _ _ => shiftOldest_none) le_rfl
  generalize shiftToBytes shiftOldestSessionFrame maxBytes counted.contents.length counted
    (currentBytes + frame.data.length - (addAll {} first).droppedBytes)
    (addAll {} first) = bytes at hsecond hretained hsum hend
  obtain ⟨trimmed, retainedBytes, total⟩ := bytes
  dsimp only at hsecond hretained hsum hend ⊢
  subst hsum
  obtain ⟨hcid, hcframes, hcpaused, hcpause, hccounter⟩ := countFrame_fields trimmed frame
  have hall := hfirst.trans hsecond
  have hcontents : (countFrame trimmed frame).contents = trimmed.contents := by
    simp [contents, hcframes, hcpaused]
  refine ⟨first ++ second, ⟨?_, ?_, ?_, ?_, ?_, ?_, ?_, ?_, ?_⟩⟩
  · rw [hcid, hall.same_id, hpid]
  · rw [hcpause, hall.same_pause, hppause]
  · rw [hccounter, hall.same_counter, hpcounter]
  · rw [hcontents, ← hall.contents, pushFrame_contents hs]
  · have hpaused := hall.pausedOnly (pushFrame_pausedOnly hs frame)
    unfold PausedOnly at hpaused ⊢
    rw [hcpaused, hcpause]
    exact hpaused
  · simp [addAll]
  · simp [addAll]
  · rw [hretained, framesByteLength_append]
    simp only [addAll]
    push_cast
    ring
  · rw [hcontents]
    exact hend

/-! ## Flushing -/

theorem flushPausedFramesToLive_spec (hpaused : s.pausedFrames ≠ []) (maxFrames : Nat)
    (currentBytes maxBytes : Int) :
    ∃ dropped, Trimmed s.contents currentBytes maxBytes s
      (flushPausedFramesToLive s maxFrames currentBytes maxBytes).1
      (flushPausedFramesToLive s maxFrames currentBytes maxBytes).2 dropped := by
  have hne : s.pausedFrames.isEmpty = false := by simpa using hpaused
  unfold flushPausedFramesToLive
  simp only [hne, Bool.false_eq_true, if_false]
  generalize hexcess : (if (s.frames ++ s.pausedFrames).length >
      maxFrames + SESSION_FRAME_TRIM_THRESHOLD then
    (s.frames ++ s.pausedFrames).length - maxFrames else 0) = excess
  obtain ⟨cut, hcut⟩ : ∃ cut : SerialSession, cut =
      { s with frames := (s.frames ++ s.pausedFrames).drop excess, pausedFrames := [] } := ⟨_, rfl⟩
  have hcontents : cut.contents = s.contents.drop excess := by
    rw [hcut]
    simp [contents]
  have hnone : ∀ t : SerialSession, t.pausedFrames <:+ cut.pausedFrames → shiftLiveFrame t = none →
      t.contents = [] := by
    intro t ht hshift
    rw [hcut, suffix_nil] at ht
    unfold shiftLiveFrame at hshift
    split at hshift
    · rename_i hframes
      simp [contents, hframes, ht]
    · cases hshift
  obtain ⟨second, hsecond, hretained, hsum, hend⟩ := shiftToBytes_spec
    (fun _ _ _ => shiftLive_some) maxBytes ((s.frames ++ s.pausedFrames).length - excess) cut
    (currentBytes - framesByteLength ((s.frames ++ s.pausedFrames).take excess))
    ⟨((s.frames ++ s.pausedFrames).take excess).length,
      framesByteLength ((s.frames ++ s.pausedFrames).take excess)⟩ hnone
    (by rw [hcontents]; simp [contents])
  rw [← hcut]
  generalize shiftToBytes shiftLiveFrame maxBytes ((s.frames ++ s.pausedFrames).length - excess) cut
    (currentBytes - framesByteLength ((s.frames ++ s.pausedFrames).take excess))
    ⟨((s.frames ++ s.pausedFrames).take excess).length,
      framesByteLength ((s.frames ++ s.pausedFrames).take excess)⟩ = bytes
    at hsecond hretained hsum hend
  obtain ⟨trimmed, retainedBytes, total⟩ := bytes
  dsimp only at hsecond hretained hsum hend ⊢
  subst hsum
  refine ⟨s.contents.take excess ++ second, ⟨?_, ?_, ?_, ?_, ?_, ?_, ?_, ?_, hend⟩⟩
  · rw [hsecond.same_id, hcut]
  · rw [hsecond.same_pause, hcut]
  · rw [hsecond.same_counter, hcut]
  · rw [append_assoc, ← hsecond.contents, hcontents, take_append_drop]
  · intro hleft
    have hsuffix := hsecond.paused
    rw [hcut, suffix_nil] at hsuffix
    exact absurd hsuffix hleft
  · simp [addAll, contents]
  · simp [addAll, contents]
  · rw [hretained, framesByteLength_append]
    simp only [contents]
    push_cast
    ring

/-! ## The limit over all sessions -/

def sessionIds (sessions : List SerialSession) : List String := sessions.map SerialSession.id

/-- The bytes that all sessions retain. -/
def bytesInAll (sessions : List SerialSession) : Int :=
  (sessions.map fun s => (framesByteLength s.contents : Int)).sum

/-- `oldestSession`, behind one more session. -/
def older (oldest : Option (String × ℚ)) (s : SerialSession) : Option (String × ℚ) :=
  match s.contents.head? with
  | none => oldest
  | some candidate =>
    if oldest.any (fun o => decide (o.2 ≤ frameTime candidate)) then oldest
    else some (s.id, frameTime candidate)

theorem oldestSession_foldl (sessions : List SerialSession) (oldest : Option (String × ℚ)) :
    sessions.foldl older oldest = none → oldest = none ∧ ∀ s ∈ sessions, s.contents = [] := by
  induction sessions generalizing oldest with
  | nil => exact fun h => ⟨h, by simp⟩
  | cons s sessions ih =>
    intro h
    rw [foldl_cons] at h
    obtain ⟨hfirst, hrest⟩ := ih _ h
    cases hhead : s.contents.head? with
    | none =>
      rw [older, hhead] at hfirst
      refine ⟨hfirst, ?_⟩
      intro other hother
      rcases mem_cons.1 hother with rfl | hother
      · exact head?_eq_none_iff.1 hhead
      · exact hrest other hother
    | some candidate =>
      rw [older, hhead] at hfirst
      dsimp only at hfirst
      split at hfirst
      · rename_i hany
        rw [hfirst] at hany
        cases hany
      · cases hfirst

theorem oldestSession_none (h : oldestSession sessions = none) : ∀ s ∈ sessions, s.contents = [] :=
  (oldestSession_foldl sessions none h).2

theorem oldestSession_mem (sessions : List SerialSession) (oldest : Option (String × ℚ))
    (found : String × ℚ) (h : sessions.foldl older oldest = some found) :
    oldest = some found ∨ ∃ s ∈ sessions, s.id = found.1 ∧ s.contents ≠ [] := by
  induction sessions generalizing oldest with
  | nil => exact .inl h
  | cons s sessions ih =>
    rw [foldl_cons] at h
    rcases ih _ h with hfirst | ⟨other, hother, hid, hne⟩
    · cases hhead : s.contents.head? with
      | none =>
        rw [older, hhead] at hfirst
        exact .inl hfirst
      | some candidate =>
        rw [older, hhead] at hfirst
        dsimp only at hfirst
        split at hfirst
        · exact .inl hfirst
        · cases hfirst
          refine .inr ⟨s, mem_cons_self, rfl, ?_⟩
          rintro hnil
          rw [hnil] at hhead
          cases hhead
    · exact .inr ⟨other, mem_cons_of_mem _ hother, hid, hne⟩

variable {sessions' : List SerialSession} {id : String}

theorem shiftOldest_of_some (h : shiftOldest sessions = some (id, frame, sessions')) :
    ∃ s s', sessions.find? (·.id = id) = some s ∧ DropsOldest s s' [frame] ∧
      sessions' = modifyKey SerialSession.id id (fun _ => s') sessions := by
  unfold shiftOldest at h
  cases hold : oldestSession sessions with
  | none =>
    rw [hold] at h
    cases h
  | some oldest =>
    rw [hold, bind_some, map_eq_some_iff] at h
    obtain ⟨⟨frame', rest⟩, hshift, heq⟩ := h
    cases heq
    unfold shiftSession at hshift
    split at hshift
    · cases hshift
    · rename_i s hfind
      obtain ⟨⟨frame', s'⟩, hs, heq⟩ := map_eq_some_iff.1 hshift
      cases heq
      exact ⟨s, s', hfind, shiftOldest_some hs, rfl⟩

theorem shiftOldest_of_none (hids : (sessionIds sessions).Nodup) (h : shiftOldest sessions = none) :
    ∀ s ∈ sessions, s.contents = [] := by
  unfold shiftOldest at h
  cases hold : oldestSession sessions with
  | none => exact oldestSession_none hold
  | some oldest =>
    exfalso
    rw [hold, bind_some, map_eq_none_iff] at h
    obtain hnone | ⟨s, hs, hid, hne⟩ := oldestSession_mem sessions none oldest hold
    · cases hnone
    have hfind := find_of_mem hids hs
    rw [hid] at hfind
    unfold shiftSession at h
    rw [hfind] at h
    exact hne (shiftOldest_none (map_eq_none_iff.1 h))

/-- Sessions after a trim over all of them, and the books of it. -/
structure TrimmedAll (before after : List SerialSession) (currentBytes retainedBytes : Int)
    (dropped : OrderedMap String FrameDrop) : Prop where
  same_ids : sessionIds after = sessionIds before
  keys_distinct : (dropped.map Prod.fst).Nodup
  keys_known : ∀ id ∈ dropped.map Prod.fst, id ∈ sessionIds before
  positive : ∀ entry ∈ dropped, 0 < entry.2.droppedFrames
  each : ∀ id s, before.find? (·.id = id) = some s →
    ∃ s' d, after.find? (·.id = id) = some s' ∧ DropsOldest s s' d ∧
      dropOf dropped id = addAll {} d
  bytes : retainedBytes = currentBytes - (bytesInAll before - bytesInAll after)

theorem TrimmedAll.refl (sessions : List SerialSession) (currentBytes : Int) :
    TrimmedAll sessions sessions currentBytes currentBytes [] where
  same_ids := rfl
  keys_distinct := nodup_nil
  keys_known := by simp
  positive := by simp
  each id s hs := ⟨s, [], hs, .refl s, rfl⟩
  bytes := by ring

variable {currentBytes : Int}

theorem TrimmedAll.shift {after after' : List SerialSession} (hids : (sessionIds before).Nodup)
    (h : TrimmedAll before after currentBytes retainedBytes dropped)
    (hshift : shiftOldest after = some (id, frame, after')) :
    TrimmedAll before after' currentBytes (retainedBytes - frame.data.length)
      (dropped.set id ((dropOf dropped id).add frame)) := by
  obtain ⟨s, s', hfind, hdrops, rfl⟩ := shiftOldest_of_some hshift
  have hafter : (sessionIds after).Nodup := h.same_ids ▸ hids
  have hid : s'.id = id := hdrops.same_id.trans (find_mem hfind).2
  have hkey : ∀ r : SerialSession, r.id = id → ((fun _ => s') r : SerialSession).id = id :=
    fun _ _ => hid
  obtain ⟨hnodup, hkeys⟩ := keys_set dropped id ((dropOf dropped id).add frame)
    h.keys_distinct
  have hsame : sessionIds (modifyKey SerialSession.id id (fun _ => s') after) = sessionIds after :=
    modifyKey_keys hkey after
  refine ⟨hsame.trans h.same_ids, hnodup, ?_, ?_, ?_, ?_⟩
  · intro k hk
    rcases (hkeys k).1 hk with rfl | hk
    · exact h.same_ids ▸ (find_mem hfind).2 ▸ mem_map_of_mem (find_mem hfind).1
    · exact h.keys_known k hk
  · intro entry hentry
    rcases mem_set hentry with rfl | hentry
    · exact succ_pos _
    · exact h.positive entry hentry
  · intro k s0 hs0
    obtain ⟨t, d, ht, hd, hdrop⟩ := h.each k s0 hs0
    by_cases hk : k = id
    · subst hk
      rw [hfind] at ht
      cases ht
      refine ⟨s', d ++ [frame], find_modifyKey_self hkey hfind, hd.trans hdrops, ?_⟩
      rw [dropOf, get_set_self, getD_some, hdrop]
      simp [addAll, add]
    · refine ⟨t, d, ?_, hd, ?_⟩
      · rw [find_modifyKey_of_ne hkey hk]
        exact ht
      · rw [dropOf, get_set_of_ne _ _ hk]
        exact hdrop
  · have hsum := sum_modifyKey (f := fun _ => s')
      (g := fun s : SerialSession => (framesByteLength s.contents : ℤ)) hafter hfind
    have hbytes := hdrops.bytes
    rw [framesByteLength_cons, framesByteLength_nil] at hbytes
    have hall : bytesInAll (modifyKey SerialSession.id id (fun _ => s') after) =
        bytesInAll after - frame.data.length := by
      unfold bytesInAll
      rw [hsum]
      omega
    rw [h.bytes, hall]
    ring

theorem framesInAll_shift (hids : (sessionIds sessions).Nodup)
    (hshift : shiftOldest sessions = some (id, frame, sessions')) :
    framesInAll sessions = framesInAll sessions' + 1 := by
  obtain ⟨s, s', hfind, hdrops, rfl⟩ := shiftOldest_of_some hshift
  have hsum := sum_modifyKey (f := fun _ => s')
    (g := fun s : SerialSession => (s.contents.length : ℤ)) hids hfind
  have hlength := congrArg length hdrops.contents
  simp only [length_append, length_singleton] at hlength
  have hcast : ∀ l : List SerialSession,
      ((framesInAll l : Nat) : ℤ) = (l.map fun s => (s.contents.length : ℤ)).sum := by
    intro l
    simp [framesInAll, cast_list_sum, Function.comp_def]
  have h1 := hcast sessions
  have h2 := hcast (modifyKey SerialSession.id id (fun _ => s') sessions)
  rw [hsum] at h2
  omega

/-- With a round for each frame and one more, the sessions fit the limit, or hold nothing. -/
theorem trimSessions_spec (maxBytes : Int) (rounds : Nat) (hids : (sessionIds before).Nodup)
    (h : TrimmedAll before sessions currentBytes retainedBytes dropped)
    (hcurrent : currentBytes = bytesInAll before) (hmax : 0 ≤ maxBytes)
    (hrounds : framesInAll sessions < rounds) :
    TrimmedAll before (trimSessions maxBytes rounds sessions retainedBytes dropped).sessions
        currentBytes (trimSessions maxBytes rounds sessions retainedBytes dropped).retainedBytes
        (trimSessions maxBytes rounds sessions retainedBytes dropped).dropped ∧
      (trimSessions maxBytes rounds sessions retainedBytes dropped).retainedBytes ≤ maxBytes := by
  induction rounds generalizing sessions retainedBytes dropped with
  | zero => omega
  | succ rounds ih =>
    unfold trimSessions
    by_cases hfits : retainedBytes ≤ maxBytes
    · rw [if_pos hfits]
      exact ⟨h, hfits⟩
    · rw [if_neg hfits]
      have hafter : (sessionIds sessions).Nodup := h.same_ids ▸ hids
      cases hshift : shiftOldest sessions with
      | none =>
        have hempty := shiftOldest_of_none hafter hshift
        have hzero : bytesInAll sessions = 0 := by
          unfold bytesInAll
          rw [sum_eq_zero]
          intro n hn
          obtain ⟨s, hs, rfl⟩ := mem_map.1 hn
          simp [hempty s hs]
        have hbytes := h.bytes
        -- the sessions hold nothing, so what was counted is what was dropped
        refine ⟨⟨h.same_ids, h.keys_distinct, h.keys_known, h.positive, h.each, ?_⟩, hmax⟩
        omega
      | some shifted =>
        obtain ⟨id, frame, sessions'⟩ := shifted
        have hframes := framesInAll_shift hafter hshift
        exact ih (h.shift hids hshift) (by omega)

theorem trimSessionsToGlobalByteLimit_spec (hids : (sessionIds sessions).Nodup) (maxBytes : Int)
    (hmax : 0 ≤ maxBytes) :
    TrimmedAll sessions
        (trimSessionsToGlobalByteLimit sessions (bytesInAll sessions) maxBytes).sessions
        (bytesInAll sessions)
        (trimSessionsToGlobalByteLimit sessions (bytesInAll sessions) maxBytes).retainedBytes
        (trimSessionsToGlobalByteLimit sessions (bytesInAll sessions) maxBytes).dropped ∧
      (trimSessionsToGlobalByteLimit sessions (bytesInAll sessions) maxBytes).retainedBytes ≤
        maxBytes :=
  trimSessions_spec maxBytes _ hids (.refl sessions _) rfl hmax (lt_succ_self _)

/-- What is counted as retained is what the sessions hold. -/
theorem TrimmedAll.retained {after : List SerialSession}
    (h : TrimmedAll before after (bytesInAll before) retainedBytes dropped) :
    retainedBytes = bytesInAll after := by
  rw [h.bytes]
  ring

end bbcom.capture
