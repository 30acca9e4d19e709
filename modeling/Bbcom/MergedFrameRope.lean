-- The index of the merged view (`merged-frame-rope.ts`): runs of frames of one direction, which
-- grow by a reference to each chunk, and a small cache of their last bytes.
import Bbcom.Lib.Runs
import Bbcom.DataFrame

open bbcom.js bbcom.serial bbcom.runs

namespace bbcom.merged_frame_rope

open List Option Uint8Array

def MAX_MERGED_VISIBLE_BYTES : Nat := 64 * 1024
def TAIL_CACHE_CAPACITY : Nat := 8

/-! ## The index -/

/-- A run, with the plain fields of the frame that the view shows for it. -/
structure RopeRun where
  id : String
  direction : Direction
  timestamp : JsNumber
  chunks : List Uint8Array
  totalBytes : Nat
  contentVersion : Nat
  detached : Bool
  deriving DecidableEq

structure RopeTailCacheEntry where
  run : Nat
  contentVersion : Nat
  tail : Uint8Array
  deriving DecidableEq

/-- `heap` holds all runs that were ever made, and a run and its frame go by their place in it.
The frames of `runs` are the keys of `runByFrame`. -/
structure MergedFrameRopeIndex where
  heap : List RopeRun
  runs : List Nat
  displayFrames : List Nat
  runByFrame : List Nat
  tailCache : List RopeTailCacheEntry

/-- What `materialize` makes of a run. -/
structure MaterializedFrame where
  id : String
  direction : Direction
  timestamp : JsNumber
  data : Uint8Array
  contentVersion : Nat

namespace MergedFrameRopeIndex

def new : MergedFrameRopeIndex := ⟨[], [], [], [], []⟩

variable (s : MergedFrameRopeIndex)

def detach (run : RopeRun) : RopeRun := { run with detached := true, chunks := [], totalBytes := 0 }

def clear : MergedFrameRopeIndex where
  heap := s.runs.foldl (fun heap run => heap.modify run detach) s.heap
  runs := []
  displayFrames := []
  runByFrame := s.runByFrame.filter fun frame => frame ∉ s.runs
  tailCache := []

def dropTailCacheEntry (run : Nat) : MergedFrameRopeIndex :=
  { s with tailCache := s.tailCache.eraseP fun entry => entry.run = run }

/-- The end of `append`: a run of its own. -/
def appendRun (sourceFrame : DataFrame) : MergedFrameRopeIndex :=
  let run := s.heap.length
  { s with
    heap := s.heap ++ [{
      id := "merged-" ++ sourceFrame.id
      direction := sourceFrame.direction
      timestamp := sourceFrame.timestamp
      chunks := [sourceFrame.data]
      totalBytes := sourceFrame.data.length
      contentVersion := 1
      detached := false }]
    runs := s.runs ++ [run]
    displayFrames := s.displayFrames ++ [run]
    runByFrame := s.runByFrame ++ [run] }

/-- A chunk more. -/
def grow (sourceFrame : DataFrame) (run : RopeRun) : RopeRun :=
  { run with
    chunks := run.chunks ++ [sourceFrame.data]
    totalBytes := run.totalBytes + sourceFrame.data.length
    contentVersion := run.contentVersion + 1 }

def append (sourceFrame : DataFrame) : MergedFrameRopeIndex :=
  match s.runs.getLast? with
  | none => s.appendRun sourceFrame
  | some last =>
    match s.heap[last]? with
    | none => s.appendRun sourceFrame
    | some run =>
      if run.detached = false ∧ run.direction = sourceFrame.direction then
        let s := { s with heap := s.heap.modify last (grow sourceFrame) }
        if 0 < s.tailCache.length then s.dropTailCacheEntry last else s
      else s.appendRun sourceFrame

def appendRange (source : List DataFrame) (start : Nat) : MergedFrameRopeIndex :=
  (source.drop start).foldl append s

def rebuild (source : List DataFrame) : MergedFrameRopeIndex := s.clear.appendRange source 0

/-- The loop of `materialize`. -/
def setChunks : List Uint8Array → Uint8Array → Nat → Uint8Array
  | [], data, _ => data
  | chunk :: chunks, data, offset =>
      setChunks chunks (data.set chunk offset) (offset + chunk.length)

/-- `none` stands for the frame itself, which a frame that is not of the index comes back as. -/
def materialize (frame : Nat) : Option MaterializedFrame :=
  if frame ∈ s.runByFrame then
    match s.heap[frame]? with
    | none => none
    | some run =>
      if run.detached then none
      else some {
        id := run.id
        direction := run.direction
        timestamp := run.timestamp
        data := setChunks run.chunks (zeros run.totalBytes) 0
        contentVersion := run.contentVersion }
  else none

/-! ## The last bytes -/

/-- The loop of `tailFor` over the chunks from the last one on. -/
def tailLoop : List Uint8Array → Uint8Array → Nat → Uint8Array
  | [], tail, _ => tail
  | chunk :: chunks, tail, destinationEnd =>
    if 0 < destinationEnd then
      let copyLength := min destinationEnd chunk.length
      let destinationEnd := destinationEnd - copyLength
      tailLoop chunks (tail.set (chunk.drop (chunk.length - copyLength)) destinationEnd)
        destinationEnd
    else tail

/-- The tail of the cache at the current version, which becomes the newest entry. -/
def freshTailEntry (ref contentVersion : Nat) : MergedFrameRopeIndex × Option RopeTailCacheEntry :=
  match s.tailCache.find? (·.run = ref) with
  | none => (s, none)
  | some entry =>
    let tailCache := s.tailCache.eraseP (·.run = ref)
    if entry.contentVersion ≠ contentVersion then ({ s with tailCache }, none)
    else ({ s with tailCache := entry :: tailCache }, some entry)

def rememberTail (ref contentVersion : Nat) (tail : Uint8Array) : MergedFrameRopeIndex :=
  { s with tailCache := (⟨ref, contentVersion, tail⟩ :: s.tailCache).take TAIL_CACHE_CAPACITY }

def tailFor (ref : Nat) : MergedFrameRopeIndex × Uint8Array :=
  match s.heap[ref]? with
  | none => (s, [])
  | some run =>
    if run.detached = true ∨ run.totalBytes = 0 then (s, [])
    else
      match s.freshTailEntry ref run.contentVersion with
      | (s, some cached) => (s, cached.tail)
      | (s, none) =>
        let tailLength := min run.totalBytes MAX_MERGED_VISIBLE_BYTES
        let tail := tailLoop run.chunks.reverse (zeros tailLength) tailLength
        (s.rememberTail ref run.contentVersion tail, tail)

end MergedFrameRopeIndex

/-! ## The runs of a list of frames -/

def sameDirection (a b : DataFrame) : Bool := a.direction = b.direction

/-- The longest stretches of one direction. -/
def directionRuns (source : List DataFrame) : List (List DataFrame) := source.splitBy sameDirection

/-- The run of such frames. -/
def runOf : List DataFrame → Option RopeRun
  | [] => none
  | first :: frames => some {
      id := "merged-" ++ first.id
      direction := first.direction
      timestamp := first.timestamp
      chunks := (first :: frames).map (·.data)
      totalBytes := framesByteLength (first :: frames)
      contentVersion := (first :: frames).length
      detached := false }

variable {frame first : DataFrame} {frames : List DataFrame}

theorem directionRuns_other {source : List DataFrame}
    (h : ∀ last ∈ source.getLast?, last.direction ≠ frame.direction) :
    directionRuns (source ++ [frame]) = directionRuns source ++ [[frame]] := by
  have hedge : ∀ last ∈ source.getLast?, sameDirection last frame = false := by
    intro last hlast
    exact decide_eq_false (h last hlast)
  unfold directionRuns
  rw [splitBy_append_cons [] hedge]
  rfl

/-- The frames of a run have the direction of the first. -/
theorem direction_of_chain (h : (first :: frames).IsChain fun a b => sameDirection a b = true) :
    ∀ frame ∈ first :: frames, frame.direction = first.direction := by
  induction frames generalizing first with
  | nil =>
    intro frame hframe
    rw [mem_singleton.1 hframe]
  | cons second frames ih =>
    obtain ⟨hsame, hrest⟩ := isChain_cons_cons.1 h
    intro frame hframe
    rcases mem_cons.1 hframe with rfl | hframe
    · rfl
    · rw [ih hrest frame hframe]
      exact (of_decide_eq_true hsame).symm

theorem directionRuns_same {source : List DataFrame} {earlier : List (List DataFrame)}
    (hruns : directionRuns source = earlier ++ [first :: frames])
    (h : first.direction = frame.direction) :
    directionRuns (source ++ [frame]) = earlier ++ [first :: (frames ++ [frame])] := by
  obtain ⟨hsource, hnil, hchains, hedges⟩ := splitBy_eq_iff.1 hruns
  have hchain := hchains (first :: frames) (by simp)
  obtain ⟨hearlier, -, hedge⟩ := isChain_append.1 hedges
  refine splitBy_eq_iff.2 ⟨?_, ?_, ?_, ?_⟩
  · rw [hsource]
    simp
  · intro hin
    rcases mem_append.1 hin with hin | hin
    · exact hnil (mem_append_left _ hin)
    · exact absurd (mem_singleton.1 hin) (by simp)
  · intro group hgroup
    rcases mem_append.1 hgroup with hgroup | hgroup
    · exact hchains group (mem_append_left _ hgroup)
    · rw [mem_singleton.1 hgroup, ← cons_append]
      refine isChain_append.2 ⟨hchain, isChain_singleton _, ?_⟩
      intro last hlast next hnext
      rw [head?_cons, mem_some_iff] at hnext
      subst hnext
      refine decide_eq_true ?_
      rw [direction_of_chain hchain last (mem_of_getLast? hlast), h]
  · refine isChain_append.2 ⟨hearlier, isChain_singleton _, ?_⟩
    intro group hgroup next hnext
    rw [head?_cons, mem_some_iff] at hnext
    subst hnext
    obtain ⟨hne, _, hother⟩ := hedge group hgroup (first :: frames) rfl
    exact ⟨hne, cons_ne_nil _ _, hother⟩

/-! ## The bytes of a run -/

open MergedFrameRopeIndex

/-- The loop fills the tail from its end. -/
theorem tailLoop_spec (chunks : List Uint8Array) {tail : Uint8Array} {destinationEnd : Nat}
    (hend : destinationEnd ≤ tail.length) (hfull : destinationEnd ≤ chunks.flatten.length) :
    tailLoop chunks tail destinationEnd =
      chunks.reverse.flatten.rtake destinationEnd ++ tail.drop destinationEnd := by
  induction chunks generalizing tail destinationEnd with
  | nil =>
    obtain rfl : destinationEnd = 0 := Nat.le_zero.1 hfull
    rfl
  | cons chunk chunks ih =>
    unfold tailLoop
    rw [flatten_cons, length_append] at hfull
    split_ifs with hpos
    · simp only
      obtain ⟨copyLength, hcopy⟩ : ∃ n, n = min destinationEnd chunk.length := ⟨_, rfl⟩
      rw [← hcopy]
      have hdrop : (chunk.drop (chunk.length - copyLength)).length = copyLength := by
        rw [length_drop]
        omega
      have hset := Uint8Array.length_set tail (chunk.drop (chunk.length - copyLength))
        (destinationEnd - copyLength) (by omega)
      rw [ih (by omega) (by omega)]
      have hlast : (tail.set (chunk.drop (chunk.length - copyLength))
          (destinationEnd - copyLength)).drop (destinationEnd - copyLength) =
          chunk.drop (chunk.length - copyLength) ++ tail.drop destinationEnd := by
        have hfront : (tail.take (destinationEnd - copyLength)).length =
            destinationEnd - copyLength := length_take_of_le (by omega)
        unfold Uint8Array.set
        rw [append_assoc, drop_append_of_le_length hfront.ge,
          drop_of_length_le hfront.le, nil_append, hdrop,
          Nat.sub_add_cancel (by omega)]
      have hrev : ((chunk :: chunks).reverse).flatten = chunks.reverse.flatten ++ chunk := by
        simp
      rw [hlast, hrev, ← append_assoc]
      congr 1
      have hlength : chunks.reverse.flatten.length = chunks.flatten.length := by
        simp [length_flatten]
      unfold rtake
      rw [length_append]
      by_cases hwhole : chunk.length ≤ destinationEnd
      · obtain rfl : copyLength = chunk.length := by omega
        rw [Nat.sub_self, drop_zero, drop_append_of_le_length (by omega)]
        congr 2
        omega
      · obtain rfl : copyLength = destinationEnd := by omega
        have hright : (chunks.reverse.flatten ++ chunk).drop
            (chunks.reverse.flatten.length + chunk.length - copyLength) =
            chunk.drop (chunk.length - copyLength) := by
          rw [drop_append, drop_of_length_le (by omega), nil_append]
          congr 1
          omega
        rw [hright, Nat.sub_self, Nat.sub_zero, drop_length, nil_append]
    · obtain rfl : destinationEnd = 0 := Nat.eq_zero_of_not_pos hpos
      simp

/-- The chunks fill the array one behind the other. -/
theorem setChunks_spec (chunks : List Uint8Array) {data : Uint8Array} {offset : Nat}
    (hfits : offset + chunks.flatten.length = data.length) :
    setChunks chunks data offset = data.take offset ++ chunks.flatten := by
  induction chunks generalizing data offset with
  | nil =>
    rw [flatten_nil, length_nil] at hfits
    unfold setChunks
    rw [flatten_nil, append_nil, take_of_length_le (by omega)]
  | cons chunk chunks ih =>
    rw [flatten_cons, length_append] at hfits
    have hset := Uint8Array.length_set data chunk offset (by omega)
    unfold setChunks
    rw [ih (by omega), flatten_cons, ← append_assoc]
    congr 1
    have hfront : (data.take offset ++ chunk).length = offset + chunk.length := by
      rw [length_append, length_take_of_le (by omega)]
    unfold Uint8Array.set
    rw [← hfront, take_left]

/-! ## The index and its frames -/

/-- The last bytes of a run. -/
def tailOf (run : RopeRun) : Uint8Array := run.chunks.flatten.rtake MAX_MERGED_VISIBLE_BYTES

/-- A run that counts its bytes. -/
def Counted (run : RopeRun) : Prop := run.totalBytes = run.chunks.flatten.length

theorem runOf_counted {run : RopeRun} (h : runOf frames = some run) : Counted run := by
  cases frames with
  | nil => cases h
  | cons first frames =>
    cases h
    unfold Counted framesByteLength
    rw [length_flatten, List.map_map]
    rfl

/-- The index stands for the frames. -/
structure Represents (source : List DataFrame) (s : MergedFrameRopeIndex) : Prop where
  displayFrames : s.displayFrames = s.runs
  runByFrame : s.runByFrame = s.runs
  nodup : s.runs.Nodup
  contents : s.runs.map (fun run => s.heap[run]?) = (directionRuns source).map runOf
  stale : ∀ ref run, s.heap[ref]? = some run → ref ∉ s.runs → run.detached = true
  cache : ∀ entry ∈ s.tailCache, ∃ run, s.heap[entry.run]? = some run ∧
    run.contentVersion = entry.contentVersion ∧ entry.tail = tailOf run
  cacheNodup : (s.tailCache.map (·.run)).Nodup
  cacheSize : s.tailCache.length ≤ TAIL_CACHE_CAPACITY

theorem represents_new : Represents [] .new :=
  ⟨rfl, rfl, nodup_nil, rfl, by rintro ref run ⟨⟩, by rintro entry ⟨⟩, nodup_nil, Nat.zero_le _⟩

variable {s : MergedFrameRopeIndex} {source : List DataFrame}

/-- A run of the index is a run of its frames. -/
theorem Represents.run (h : Represents source s) {ref : Nat} (href : ref ∈ s.runs) :
    ∃ frames ∈ directionRuns source, ∃ run, s.heap[ref]? = some run ∧ runOf frames = some run := by
  have hin := mem_map_of_mem (f := fun run => s.heap[run]?) href
  rw [h.contents] at hin
  obtain ⟨frames, hframes, heq⟩ := mem_map.1 hin
  have hsome : frames ≠ [] := ne_nil_of_mem_splitBy hframes
  obtain ⟨first, rest, rfl⟩ := exists_cons_of_ne_nil hsome
  exact ⟨_, hframes, _, heq.symm, rfl⟩

theorem Represents.lt_length (h : Represents source s) {ref : Nat} (href : ref ∈ s.runs) :
    ref < s.heap.length := by
  obtain ⟨-, -, run, hrun, -⟩ := h.run href
  exact (List.getElem?_eq_some_iff.1 hrun).1

theorem lastDirection {earlier : List (List DataFrame)}
    (hruns : directionRuns source = earlier ++ [first :: frames]) :
    ∀ last ∈ source.getLast?, last.direction = first.direction := by
  obtain ⟨hsource, -, hchains, -⟩ := splitBy_eq_iff.1 hruns
  intro last hlast
  rw [hsource, flatten_append, flatten_singleton,
    getLast?_append_of_ne_nil _ (cons_ne_nil _ _)] at hlast
  exact direction_of_chain (hchains _ (by simp)) last (mem_of_getLast? hlast)

/-- The last run of the index. -/
theorem Represents.lastRun (h : Represents source s) {last : Nat}
    (hlast : s.runs.getLast? = some last) :
    ∃ init earlier first frames run, s.runs = init ++ [last] ∧
      directionRuns source = earlier ++ [first :: frames] ∧
      init.map (fun run => s.heap[run]?) = earlier.map runOf ∧ s.heap[last]? = some run ∧
      runOf (first :: frames) = some run := by
  obtain ⟨init, hinit⟩ := getLast?_eq_some_iff.1 hlast
  have hcontents := h.contents
  rw [hinit, map_append, map_singleton] at hcontents
  rcases eq_nil_or_concat (directionRuns source) with hnil | ⟨earlier, group, hgroups⟩
  · rw [hnil] at hcontents
    exact absurd hcontents (by simp)
  · rw [concat_eq_append] at hgroups
    rw [hgroups, map_append, map_singleton] at hcontents
    obtain ⟨hearlier, hgroup⟩ := append_inj' hcontents rfl
    have hin : group ∈ directionRuns source := by
      rw [hgroups]
      simp
    obtain ⟨first, frames, rfl⟩ := exists_cons_of_ne_nil (ne_nil_of_mem_splitBy hin)
    exact ⟨init, earlier, first, frames, _, hinit, hgroups, hearlier,
      head_eq_of_cons_eq hgroup, rfl⟩

/-- A run of its own keeps the others. -/
theorem Represents.appendRun (h : Represents source s)
    (hother : ∀ last ∈ source.getLast?, last.direction ≠ frame.direction) :
    Represents (source ++ [frame]) (s.appendRun frame) := by
  have hkept : ∀ ref ∈ s.runs, (s.appendRun frame).heap[ref]? = s.heap[ref]? := fun ref href =>
    List.getElem?_append_left (h.lt_length href)
  have hnew : s.heap.length ∉ s.runs := fun hin => Nat.lt_irrefl _ (h.lt_length hin)
  have hcache : ∀ entry ∈ s.tailCache,
      (s.appendRun frame).heap[entry.run]? = s.heap[entry.run]? := by
    intro entry hentry
    obtain ⟨run, hrun, -⟩ := h.cache entry hentry
    exact List.getElem?_append_left (List.getElem?_eq_some_iff.1 hrun).1
  refine ⟨?_, ?_, ?_, ?_, ?_, ?_, h.cacheNodup, h.cacheSize⟩
  · unfold MergedFrameRopeIndex.appendRun
    simp only [h.displayFrames]
  · unfold MergedFrameRopeIndex.appendRun
    simp only [h.runByFrame]
  · exact nodup_append.2 ⟨h.nodup, nodup_singleton _, by
      rintro a ha b hb rfl
      rw [mem_singleton.1 hb] at ha
      exact hnew ha⟩
  · rw [directionRuns_other hother, map_append, ← h.contents]
    have hruns : (s.appendRun frame).runs = s.runs ++ [s.heap.length] := rfl
    rw [hruns, map_append, map_congr_left hkept]
    congr 1
    unfold MergedFrameRopeIndex.appendRun
    simp only [map_singleton, List.getElem?_concat_length]
    simp [runOf]
  · intro ref run hrun href
    have hout : ref ∉ s.runs ∧ ref ≠ s.heap.length := by
      have hruns : (s.appendRun frame).runs = s.runs ++ [s.heap.length] := rfl
      rw [hruns, mem_append, mem_singleton, not_or] at href
      exact href
    have hlt : ref < s.heap.length := by
      have hlength := (List.getElem?_eq_some_iff.1 hrun).1
      have hsize : (s.appendRun frame).heap.length = s.heap.length + 1 := length_append
      omega
    have hsame : (s.appendRun frame).heap[ref]? = s.heap[ref]? := List.getElem?_append_left hlt
    rw [hsame] at hrun
    exact h.stale ref run hrun hout.1
  · intro entry hentry
    rw [hcache entry hentry]
    exact h.cache entry hentry

theorem runOf_detached {run : RopeRun} (h : runOf frames = some run) : run.detached = false := by
  cases frames with
  | nil => cases h
  | cons first frames =>
    cases h
    rfl

theorem runOf_grow {run : RopeRun} (h : runOf (first :: frames) = some run) (frame : DataFrame) :
    runOf (first :: (frames ++ [frame])) = some (grow frame run) := by
  cases h
  unfold runOf grow
  simp only [some.injEq, RopeRun.mk.injEq, true_and, and_true]
  refine ⟨by simp, ?_, by simp⟩
  rw [← cons_append, framesByteLength_append, framesByteLength_cons frame, framesByteLength_nil,
    Nat.add_zero]

/-- No entry of a run is left behind the one that is dropped. -/
theorem not_mem_eraseP_run {entries : List RopeTailCacheEntry} {ref : Nat}
    (hnodup : (entries.map (·.run)).Nodup) {entry : RopeTailCacheEntry}
    (h : entry ∈ entries.eraseP fun entry => entry.run = ref) : entry.run ≠ ref := by
  induction entries with
  | nil => cases h
  | cons newest entries ih =>
    rw [map_cons, nodup_cons] at hnodup
    rw [eraseP_cons] at h
    by_cases hnewest : newest.run = ref
    · rw [decide_eq_true hnewest, cond_true] at h
      intro hentry
      apply hnodup.1
      rw [hnewest, ← hentry]
      exact mem_map_of_mem h
    · rw [decide_eq_false hnewest, cond_false] at h
      rcases mem_cons.1 h with rfl | hin
      · exact hnewest
      · exact ih hnodup.2 hin

section

variable (h : Represents source s)
include h

/-- The last run takes one more chunk, and its tail leaves the cache. -/
theorem Represents.grow {last : Nat} {run : RopeRun} (hlast : s.runs.getLast? = some last)
    (hrun : s.heap[last]? = some run) (hsame : run.direction = frame.direction) :
    Represents (source ++ [frame])
      { s with
        heap := s.heap.modify last (MergedFrameRopeIndex.grow frame)
        tailCache := s.tailCache.eraseP fun entry => entry.run = last } := by
  obtain ⟨init, earlier, first, frames, run', hinit, hgroups, hearlier, hrun', hof⟩ :=
    h.lastRun hlast
  obtain rfl : run = run' := Option.some.inj (hrun.symm.trans hrun')
  have hfirst : first.direction = frame.direction := by
    rw [← hsame]
    cases hof
    rfl
  have hother : ∀ ref, ref ≠ last →
      (s.heap.modify last (MergedFrameRopeIndex.grow frame))[ref]? = s.heap[ref]? := by
    intro ref href
    simp [Ne.symm href]
  have hgrown : (s.heap.modify last (MergedFrameRopeIndex.grow frame))[last]? =
      some (MergedFrameRopeIndex.grow frame run) := by
    simp [hrun]
  have hnodup := h.nodup
  rw [hinit, nodup_append] at hnodup
  refine ⟨h.displayFrames, h.runByFrame, h.nodup, ?_, ?_, ?_, ?_, ?_⟩
  · rw [directionRuns_same hgroups hfirst, hinit]
    simp only [map_append, map_singleton, hgrown, runOf_grow hof]
    congr 1
    rw [← hearlier]
    apply map_congr_left
    intro ref href
    exact hother ref fun heq => hnodup.2.2 ref href last (by simp) heq
  · intro ref old hold href
    have hne : ref ≠ last := by
      rintro rfl
      exact href (mem_of_getLast? hlast)
    rw [hother ref hne] at hold
    exact h.stale ref old hold href
  · intro entry hentry
    rw [hother entry.run (not_mem_eraseP_run h.cacheNodup hentry)]
    exact h.cache entry (mem_of_mem_eraseP hentry)
  · exact h.cacheNodup.sublist (eraseP_sublist.map _)
  · exact (eraseP_sublist.length_le).trans h.cacheSize

theorem Represents.append (frame : DataFrame) :
    Represents (source ++ [frame]) (s.append frame) := by
  unfold MergedFrameRopeIndex.append
  cases hlast : s.runs.getLast? with
  | none =>
    have hnil : source = [] := by
      have hcontents := h.contents
      rw [getLast?_eq_none_iff.1 hlast, map_nil, eq_comm, map_eq_nil_iff] at hcontents
      exact splitBy_eq_nil.1 hcontents
    apply h.appendRun
    rw [hnil]
    rintro last ⟨⟩
  | some last =>
    obtain ⟨init, earlier, first, frames, run, hinit, hgroups, hearlier, hrun, hof⟩ :=
      h.lastRun hlast
    have hdirection : run.direction = first.direction := by
      cases hof
      rfl
    simp only [hrun, runOf_detached hof, true_and]
    split_ifs with hsame hcached
    · exact h.grow hlast hrun hsame
    · have hempty : s.tailCache = [] := length_eq_zero_iff.1 (Nat.eq_zero_of_not_pos hcached)
      have hgrown := h.grow hlast hrun hsame
      rw [hempty, eraseP_nil, ← hempty] at hgrown
      exact hgrown
    · apply h.appendRun
      intro newest hnewest
      rw [lastDirection hgroups newest hnewest, ← hdirection]
      exact hsame

theorem Represents.foldl_append (frames : List DataFrame) :
    Represents (source ++ frames) (frames.foldl MergedFrameRopeIndex.append s) := by
  induction frames generalizing s source with
  | nil =>
    rw [append_nil]
    exact h
  | cons frame frames ih =>
    rw [foldl_cons, append_cons]
    exact ih (h.append frame)

theorem Represents.appendRange (frames : List DataFrame) (start : Nat) :
    Represents (source ++ frames.drop start) (s.appendRange frames start) :=
  h.foldl_append (frames.drop start)

end

/-- What the detaching of some runs leaves of each. -/
theorem getElem?_detached (heap : List RopeRun) (runs : List Nat) (ref : Nat) :
    (runs.foldl (fun heap run => heap.modify run detach) heap)[ref]? =
      if ref ∈ runs then heap[ref]?.map detach else heap[ref]? := by
  induction runs generalizing heap with
  | nil => rfl
  | cons run runs ih =>
    rw [foldl_cons, ih]
    by_cases href : run = ref
    · subst href
      have htwice : detach ∘ detach =
          detach := rfl
      simp [htwice]
    · simp [href, Ne.symm href]

theorem Represents.clear (h : Represents source s) : Represents [] s.clear := by
  refine ⟨rfl, ?_, nodup_nil, rfl, ?_, by rintro entry ⟨⟩, nodup_nil, Nat.zero_le _⟩
  · unfold MergedFrameRopeIndex.clear
    simp [h.runByFrame]
  · intro ref run hrun _
    unfold MergedFrameRopeIndex.clear at hrun
    simp only [getElem?_detached] at hrun
    split_ifs at hrun with hin
    · obtain ⟨old, -, rfl⟩ := map_eq_some_iff.1 hrun
      rfl
    · exact h.stale ref run hrun hin

theorem Represents.rebuild (h : Represents source s) (frames : List DataFrame) :
    Represents frames (s.rebuild frames) :=
  h.clear.appendRange frames 0

/-! ## The reads -/

/-- The array that `tailFor` fills. -/
theorem tailLoop_tailOf {run : RopeRun} (h : Counted run) :
    tailLoop run.chunks.reverse
      (zeros (min run.totalBytes MAX_MERGED_VISIBLE_BYTES))
      (min run.totalBytes MAX_MERGED_VISIBLE_BYTES) = tailOf run := by
  have hzeros : (zeros (min run.totalBytes MAX_MERGED_VISIBLE_BYTES)).length =
      min run.totalBytes MAX_MERGED_VISIBLE_BYTES := length_replicate
  have hlength : run.chunks.reverse.flatten.length = run.chunks.flatten.length := by
    simp [length_flatten]
  have hfull : min run.totalBytes MAX_MERGED_VISIBLE_BYTES ≤ run.chunks.flatten.length := by
    unfold Counted at h
    exact (min_le_left _ _).trans h.le
  rw [tailLoop_spec _ hzeros.ge (hfull.trans hlength.ge), reverse_reverse,
    drop_of_length_le hzeros.le, append_nil]
  unfold Counted at h
  unfold tailOf rtake
  rw [h, ← Nat.sub_eq_sub_min]

/-- A run that is empty has an empty tail. -/
theorem tailOf_of_totalBytes {run : RopeRun} (h : Counted run) (hempty : run.totalBytes = 0) :
    tailOf run = [] := by
  unfold Counted at h
  unfold tailOf
  rw [length_eq_zero_iff.1 (h.symm.trans hempty)]
  rfl

section
variable {ref : Nat} {run : RopeRun}

section

variable (h : Represents source s)
include h

theorem Represents.counted (href : ref ∈ s.runs) (hrun : s.heap[ref]? = some run) :
    Counted run ∧ run.detached = false := by
  obtain ⟨frames, -, run', hrun', hof⟩ := h.run href
  obtain rfl : run = run' := Option.some.inj (hrun.symm.trans hrun')
  exact ⟨runOf_counted hof, runOf_detached hof⟩

/-- Another cache whose entries are all right. -/
theorem Represents.withCache {tailCache : List RopeTailCacheEntry}
    (hcache : ∀ entry ∈ tailCache, ∃ run, s.heap[entry.run]? = some run ∧
      run.contentVersion = entry.contentVersion ∧ entry.tail = tailOf run)
    (hnodup : (tailCache.map (·.run)).Nodup) (hsize : tailCache.length ≤ TAIL_CACHE_CAPACITY) :
    Represents source { s with tailCache } :=
  ⟨h.displayFrames, h.runByFrame, h.nodup, h.contents, h.stale, hcache, hnodup, hsize⟩

/-- The cache has the tail of the run as it is now, or none. -/
theorem Represents.freshTailEntry (hrun : s.heap[ref]? = some run) :
    ∃ tailCache cached, s.freshTailEntry ref run.contentVersion = ({ s with tailCache }, cached) ∧
      Represents source { s with tailCache } ∧
      (∀ entry ∈ cached, entry.tail = tailOf run) ∧
      (cached = none → ref ∉ tailCache.map (·.run)) := by
  unfold MergedFrameRopeIndex.freshTailEntry
  cases hfind : s.tailCache.find? (·.run = ref) with
  | none =>
    refine ⟨s.tailCache, none, rfl, h, by rintro entry ⟨⟩, fun _ hin => ?_⟩
    obtain ⟨entry, hentry, hof⟩ := mem_map.1 hin
    exact absurd (decide_eq_true hof) (find?_eq_none.1 hfind entry hentry)
  | some entry =>
    have hentry := mem_of_find?_eq_some hfind
    have hof : entry.run = ref := by simpa using find?_some hfind
    obtain ⟨run', hrun', hversion, htail⟩ := h.cache entry hentry
    obtain rfl : run = run' := by
      rw [hof, hrun] at hrun'
      exact Option.some.inj hrun'
    have hleft : ∀ other ∈ s.tailCache.eraseP (·.run = ref), other.run ≠ ref := fun other hother =>
      not_mem_eraseP_run h.cacheNodup hother
    simp only [hversion, ne_eq, not_true_eq_false, if_false]
    refine ⟨_, some entry, rfl, h.withCache ?_ ?_ ?_, ?_, by rintro ⟨⟩⟩
    · intro other hother
      rcases mem_cons.1 hother with rfl | hother
      · exact h.cache other hentry
      · exact h.cache other (mem_of_mem_eraseP hother)
    · rw [map_cons, nodup_cons]
      refine ⟨fun hin => ?_, h.cacheNodup.sublist (eraseP_sublist.map _)⟩
      obtain ⟨other, hother, hsame⟩ := mem_map.1 hin
      exact hleft other hother (hsame.trans hof)
    · rw [length_cons, length_eraseP_of_mem hentry (decide_eq_true hof)]
      have hpos := length_pos_of_mem hentry
      have hsize := h.cacheSize
      omega
    · intro other hother
      rw [mem_some_iff] at hother
      rw [← hother]
      exact htail

/-- The tail of the run comes first into the cache. -/
theorem Represents.rememberTail {tail : Uint8Array} (hrun : s.heap[ref]? = some run)
    (hgone : ref ∉ s.tailCache.map (·.run)) (htail : tail = tailOf run) :
    Represents source (s.rememberTail ref run.contentVersion tail) := by
  unfold MergedFrameRopeIndex.rememberTail
  refine h.withCache ?_ ?_ (length_take_le _ _)
  · intro entry hentry
    rcases mem_cons.1 (mem_of_mem_take hentry) with rfl | hentry
    · exact ⟨run, hrun, rfl, htail⟩
    · exact h.cache entry hentry
  · rw [map_take]
    apply Nodup.sublist (take_sublist _ _)
    rw [map_cons, nodup_cons]
    exact ⟨hgone, h.cacheNodup⟩

/-- A read gives the last bytes. -/
theorem Represents.tailFor (ref : Nat) :
    Represents source (s.tailFor ref).1 ∧
      (s.tailFor ref).2 = if ref ∈ s.runs then (s.heap[ref]?.map tailOf).getD [] else [] := by
  unfold MergedFrameRopeIndex.tailFor
  cases hrun : s.heap[ref]? with
  | none => exact ⟨h, by simp⟩
  | some run =>
    by_cases hlive : ref ∈ s.runs
    · obtain ⟨hcounted, hdetached⟩ := h.counted hlive hrun
      rw [if_pos hlive, map_some, getD_some]
      dsimp only
      by_cases hempty : run.totalBytes = 0
      · rw [if_pos (Or.inr hempty)]
        exact ⟨h, (tailOf_of_totalBytes hcounted hempty).symm⟩
      · rw [if_neg (by simp [hdetached, hempty])]
        obtain ⟨tailCache, cached, hread, hkept, htail, hgone⟩ := h.freshTailEntry hrun
        rw [hread]
        cases cached with
        | some cached => exact ⟨hkept, htail cached rfl⟩
        | none =>
          exact ⟨hkept.rememberTail hrun (hgone rfl) (tailLoop_tailOf hcounted),
            tailLoop_tailOf hcounted⟩
    · rw [if_neg hlive]
      dsimp only
      rw [if_pos (Or.inl (h.stale ref run hrun hlive))]
      exact ⟨h, rfl⟩

/-- A run is materialised whole, and a frame that is not shown comes back as it is. -/
theorem Represents.materialize (ref : Nat) :
    s.materialize ref = if ref ∈ s.runs then s.heap[ref]?.map fun run =>
      { id := run.id, direction := run.direction, timestamp := run.timestamp
        data := run.chunks.flatten, contentVersion := run.contentVersion } else none := by
  unfold MergedFrameRopeIndex.materialize
  rw [h.runByFrame]
  split_ifs with hlive
  · cases hrun : s.heap[ref]? with
    | none => rfl
    | some run =>
      obtain ⟨hcounted, hdetached⟩ := h.counted hlive hrun
      unfold Counted at hcounted
      have hzeros : (zeros run.totalBytes).length = run.totalBytes :=
        length_replicate
      simp only [hdetached, Bool.false_eq_true, if_false, map_some]
      rw [setChunks_spec _ (by omega), take_zero, nil_append]
  · rfl

end

end

/-! ## Any order of appends, reads and rebuilds -/

inductive Op
  | append (sourceFrame : DataFrame)
  | appendRange (source : List DataFrame) (start : Nat)
  | rebuild (source : List DataFrame)
  | clear
  /-- The getter `data` of a frame, shown or of an earlier build. -/
  | read (frame : Nat)

def step (s : MergedFrameRopeIndex) : Op → MergedFrameRopeIndex
  | .append sourceFrame => s.append sourceFrame
  | .appendRange source start => s.appendRange source start
  | .rebuild source => s.rebuild source
  | .clear => s.clear
  | .read frame => (s.tailFor frame).1

/-- The frames that were given to the index since it was last empty. -/
def sourceStep (given : List DataFrame) : Op → List DataFrame
  | .append sourceFrame => given ++ [sourceFrame]
  | .appendRange source start => given ++ source.drop start
  | .rebuild source => source
  | .clear => []
  | .read _ => given

theorem Represents.step (h : Represents source s) (op : Op) :
    Represents (sourceStep source op) (step s op) := by
  cases op with
  | append sourceFrame => exact h.append sourceFrame
  | appendRange frames start => exact h.appendRange frames start
  | rebuild frames => exact h.rebuild frames
  | clear => exact h.clear
  | read frame => exact (h.tailFor frame).1

/-- Every run of the index keeps it in step with the frames. -/
theorem represents_runs (h : Represents source s) (ops : List Op) :
    Represents (run sourceStep source ops) (run step s ops) := by
  induction ops generalizing s source with
  | nil => exact h
  | cons op ops ih => exact ih (h.step op)

/-- The runs as they are shown. -/
def contents (s : MergedFrameRopeIndex) : List (Option RopeRun) :=
  s.displayFrames.map fun frame => s.heap[frame]?

/-- The bytes of the frames one behind the other. -/
def concatenation (frames : List DataFrame) : Uint8Array := (frames.map (·.data)).flatten

/-- The last bytes of the frames, as many as a view shows. -/
def visibleBytes (frames : List DataFrame) : Uint8Array :=
  (concatenation frames).rtake (min (framesByteLength frames) MAX_MERGED_VISIBLE_BYTES)

/-- The whole of a run of frames. -/
def wholeOf (frames : List DataFrame) : Option MaterializedFrame :=
  (runOf frames).map fun run =>
    { id := run.id, direction := run.direction, timestamp := run.timestamp
      data := concatenation frames, contentVersion := run.contentVersion }

theorem concatenation_length (frames : List DataFrame) :
    (concatenation frames).length = framesByteLength frames := by
  simp [concatenation, framesByteLength, length_flatten, Function.comp_def]

theorem runOf_chunks {run : RopeRun} (h : runOf frames = some run) :
    run.chunks.flatten = concatenation frames := by
  cases frames with
  | nil => cases h
  | cons first frames =>
    cases h
    rfl

theorem tailOf_runOf {run : RopeRun} (h : runOf frames = some run) :
    tailOf run = visibleBytes frames := by
  unfold tailOf visibleBytes rtake
  rw [runOf_chunks h, concatenation_length, ← Nat.sub_eq_sub_min]

/-- What is read of each frame shown is read of its run. -/
theorem Represents.map_displayFrames (h : Represents source s) {α : Type} (f : Nat → α)
    (g : List DataFrame → α)
    (hread : ∀ ref ∈ s.runs, ∀ frames run, s.heap[ref]? = some run → runOf frames = some run →
      f ref = g frames) :
    s.displayFrames.map f = (directionRuns source).map g := by
  rw [h.displayFrames]
  have hcontents := h.contents
  apply ext_getElem?
  intro i
  have hi : (s.runs.map fun run => s.heap[run]?)[i]? = ((directionRuns source).map runOf)[i]? := by
    rw [hcontents]
  rw [getElem?_map, getElem?_map] at hi ⊢
  cases hrun : s.runs[i]? with
  | none =>
    rw [hrun, map_none, eq_comm, map_eq_none_iff] at hi
    rw [hi]
    rfl
  | some ref =>
    rw [hrun, map_some, eq_comm] at hi
    obtain ⟨frames, hframes, hof⟩ := map_eq_some_iff.1 hi
    rw [hframes, map_some, map_some]
    have hnil : frames ≠ [] := ne_nil_of_mem_splitBy (mem_of_getElem? hframes)
    obtain ⟨first, rest, rfl⟩ := exists_cons_of_ne_nil hnil
    exact congrArg some (hread ref (mem_of_getElem? hrun) _ _ hof.symm rfl)

theorem Represents.contents_eq (h : Represents source s) :
    merged_frame_rope.contents s = (directionRuns source).map runOf := by
  unfold merged_frame_rope.contents
  rw [h.displayFrames]
  exact h.contents

/-- The index after some operations. -/
def after (ops : List Op) : MergedFrameRopeIndex := run step .new ops

/-- The frames that it stands for. -/
def given (ops : List Op) : List DataFrame := run sourceStep [] ops

/-- After any order of appends, reads, clears and rebuilds the index is the one built anew from
the frames, each frame shown reads the last bytes of its run and is materialised to all of them,
and a frame of an earlier build reads nothing. -/
theorem rope_agrees_with_the_concatenation (ops : List Op) :
    contents (after ops) = contents (new.rebuild (given ops)) ∧
      contents (after ops) = (directionRuns (given ops)).map runOf ∧
      (after ops).displayFrames.map (fun frame => ((after ops).tailFor frame).2) =
        (directionRuns (given ops)).map visibleBytes ∧
      (after ops).displayFrames.map (after ops).materialize =
        (directionRuns (given ops)).map wholeOf ∧
      ∀ frame, frame ∈ (after ops).displayFrames ∨
        ((after ops).tailFor frame).2 = [] ∧ (after ops).materialize frame = none := by
  have h : Represents (given ops) (after ops) := represents_runs represents_new ops
  have hanew := represents_new.rebuild (given ops)
  refine ⟨?_, h.contents_eq, ?_, ?_, ?_⟩
  · rw [h.contents_eq, hanew.contents_eq]
  · apply h.map_displayFrames
    intro ref href frames run' hrun hof
    rw [(h.tailFor ref).2, if_pos href, hrun, map_some, getD_some, tailOf_runOf hof]
  · apply h.map_displayFrames
    intro ref href frames run' hrun hof
    unfold wholeOf
    rw [h.materialize, if_pos href, hrun, hof, map_some, map_some, runOf_chunks hof]
  · intro frame
    rw [h.displayFrames]
    by_cases hshown : frame ∈ (after ops).runs
    · exact Or.inl hshown
    · refine Or.inr ⟨?_, ?_⟩
      · rw [(h.tailFor frame).2, if_neg hshown]
      · rw [h.materialize, if_neg hshown]

end bbcom.merged_frame_rope
