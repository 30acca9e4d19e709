-- Incremental framing. An extractor reads the items it holds and takes one
-- event from their front, or waits for more. When an event that it takes
-- never changes once more items come, the cuts of the stream do not matter.
import Mathlib

namespace bbcom.framing

open List

variable {α ε : Type}

/-! ## Extractors -/

/-- `next held` is the event at the front of `held` with the number of items that it
takes, or `none` to wait. -/
structure Extractor (α ε : Type) where
  next : List α → Option (ε × Nat)
  takes_some : ∀ {held : List α} {e : ε} {n : Nat}, next held = some (e, n) → 0 < n
  takes_held : ∀ {held : List α} {e : ε} {n : Nat}, next held = some (e, n) → n ≤ held.length
  stable : ∀ {held : List α} {e : ε} {n : Nat} (more : List α),
    next held = some (e, n) → next (held ++ more) = some (e, n)

/-- The items that no event took yet, and the place of the first one in the stream. -/
structure Held (α : Type) where
  offset : Nat
  items : List α
  deriving DecidableEq

/-- One event, with the place of its first item in the stream and its size. -/
structure Taken (ε : Type) where
  offset : Nat
  event : ε
  size : Nat
  deriving DecidableEq

def Held.push (h : Held α) (more : List α) : Held α := { h with items := h.items ++ more }

def Held.skip (h : Held α) (n : Nat) : Held α := ⟨h.offset + n, h.items.drop n⟩

@[simp] theorem Held.push_offset (h : Held α) (more : List α) : (h.push more).offset = h.offset :=
  rfl

@[simp] theorem Held.push_items (h : Held α) (more : List α) :
    (h.push more).items = h.items ++ more := rfl

open Held

@[simp] theorem Held.push_nil (h : Held α) : h.push [] = h := by simp [push]

@[simp] theorem Held.push_push (h : Held α) (a b : List α) :
    (h.push a).push b = h.push (a ++ b) := by simp [push]

theorem Held.skip_push (h : Held α) (n : Nat) (more : List α) (hn : n ≤ h.items.length) :
    (h.push more).skip n = (h.skip n).push more := by
  simp [push, skip, drop_append_of_le_length hn]

/-- Takes events until the extractor waits. -/
def drain (x : Extractor α ε) (h : Held α) : List (Taken ε) × Held α :=
  match _hx : x.next h.items with
  | none => ([], h)
  | some (e, n) =>
    let rest := drain x (h.skip n)
    (⟨h.offset, e, n⟩ :: rest.1, rest.2)
termination_by h.items.length
decreasing_by
  have h1 := x.takes_some _hx
  have h2 := x.takes_held _hx
  simp only [skip, length_drop]
  omega

def feed (x : Extractor α ε) (h : Held α) (more : List α) : List (Taken ε) × Held α :=
  drain x (h.push more)

/-- Feeds the chunks one after another, and joins the events. -/
def feedAll (x : Extractor α ε) : Held α → List (List α) → List (Taken ε) × Held α
  | h, [] => ([], h)
  | h, c :: cs =>
    let first := feed x h c
    let rest := feedAll x first.2 cs
    (first.1 ++ rest.1, rest.2)

/-- The extractor waits on what is held. -/
def Settled (x : Extractor α ε) (h : Held α) : Prop := x.next h.items = none

variable {h : Held α}

theorem drain_none {x : Extractor α ε} (hx : x.next h.items = none) :
    drain x h = ([], h) := by
  rw [drain]
  split
  · rfl
  · simp_all

theorem drain_some {x : Extractor α ε} {e : ε} {n : Nat} (hx : x.next h.items = some (e, n)) :
    drain x h = (⟨h.offset, e, n⟩ :: (drain x (h.skip n)).1, (drain x (h.skip n)).2) := by
  rw [drain]
  split
  · simp_all
  · rename_i e' n' hx'
    rw [hx] at hx'
    cases hx'
    rfl

variable (x : Extractor α ε)

/-- Nothing to read is something to wait for. -/
theorem next_nil : x.next [] = none := by
  rcases h : x.next [] with _ | ⟨e, n⟩
  · rfl
  · have h1 := x.takes_some h
    have h2 := x.takes_held h
    simp only [length_nil] at h2
    omega

/-- Induction over the events that a drain takes. -/
theorem drain_induction {x : Extractor α ε} {P : Held α → Prop}
    (waits : ∀ h, x.next h.items = none → P h)
    (takes : ∀ h e n, x.next h.items = some (e, n) → P (h.skip n) → P h) (h : Held α) : P h := by
  rcases hx : x.next h.items with _ | ⟨e, n⟩
  · exact waits h hx
  · exact takes h e n hx (drain_induction waits takes (h.skip n))
termination_by h.items.length
decreasing_by
  have h1 := x.takes_some hx
  have h2 := x.takes_held hx
  simp only [skip, length_drop]
  omega

/-! ## The cuts of the stream -/

theorem drain_settled (h : Held α) : Settled x (drain x h).2 := by
  induction h using drain_induction (x := x) with
  | waits h hx => rw [drain_none hx]; exact hx
  | takes h e n hx ih => rw [drain_some hx]; exact ih

/-- Draining early takes the same events as draining once all items are there. -/
theorem drain_push (h : Held α) (more : List α) :
    drain x (h.push more) =
      ((drain x h).1 ++ (drain x ((drain x h).2.push more)).1,
        (drain x ((drain x h).2.push more)).2) := by
  induction h using drain_induction (x := x) with
  | waits h hx => simp [drain_none hx]
  | takes h e n hx ih =>
    have hpush : x.next (h.push more).items = some (e, n) := x.stable more hx
    rw [drain_some hpush, skip_push h n more (x.takes_held hx), ih, drain_some hx]
    simp

theorem feed_append (h : Held α) (a b : List α) :
    feed x h (a ++ b) =
      ((feed x h a).1 ++ (feed x (feed x h a).2 b).1, (feed x (feed x h a).2 b).2) := by
  unfold feed
  rw [← push_push]
  exact drain_push x (h.push a) b

theorem feed_settled (h : Held α) (more : List α) :
    Settled x (feed x h more).2 := drain_settled x _

theorem feed_nil {x : Extractor α ε} (hs : Settled x h) : feed x h [] = ([], h) := by
  unfold feed
  rw [push_nil, drain_none hs]

/-- Chunks, fed one after another, give what their join gives at once. -/
theorem feedAll_eq_feed (cs : List (List α)) (h : Held α) (hs : Settled x h) :
    feedAll x h cs = feed x h cs.flatten := by
  induction cs generalizing h with
  | nil => rw [flatten_nil, feed_nil hs]; rfl
  | cons c cs ih =>
    rw [flatten_cons, feed_append, feedAll, ih _ (feed_settled x h c)]

/-- Two ways to cut one stream give the same events and leave the same items. -/
theorem feedAll_congr (h : Held α) (hs : Settled x h) (as bs : List (List α))
    (hab : as.flatten = bs.flatten) : feedAll x h as = feedAll x h bs := by
  rw [feedAll_eq_feed x as h hs, feedAll_eq_feed x bs h hs, hab]

/-! ## What the events cover -/

/-- The items that a list of events takes in all. -/
def takenSize (ts : List (Taken ε)) : Nat := (ts.map Taken.size).sum

@[simp] theorem takenSize_nil : takenSize ([] : List (Taken ε)) = 0 := rfl

@[simp] theorem takenSize_cons (t : Taken ε) (ts : List (Taken ε)) :
    takenSize (t :: ts) = t.size + takenSize ts := by simp [takenSize]

/-- The events take a prefix of the items, and the rest stays held. -/
theorem drain_conserves (h : Held α) :
    (drain x h).2 = h.skip (takenSize (drain x h).1) ∧
      takenSize (drain x h).1 ≤ h.items.length := by
  induction h using drain_induction (x := x) with
  | waits h hx => rw [drain_none hx]; simp [skip]
  | takes h e n hx ih =>
    have hn := x.takes_held hx
    obtain ⟨h1, h2⟩ := ih
    simp only [drain_some hx, takenSize_cons, h1]
    simp only [skip, length_drop, drop_drop] at h2 ⊢
    exact ⟨by simp [Nat.add_assoc], by omega⟩

/-- An event stands where the extractor finds it when it reads the stream from there. -/
theorem drain_mem (h : Held α) :
    ∀ t ∈ (drain x h).1, h.offset ≤ t.offset ∧
      x.next (h.items.drop (t.offset - h.offset)) = some (t.event, t.size) := by
  induction h using drain_induction (x := x) with
  | waits h hx => rw [drain_none hx]; simp
  | takes h e n hx ih =>
    rw [drain_some hx]
    intro t ht
    rcases mem_cons.mp ht with rfl | ht
    · exact ⟨Nat.le_refl _, by simpa using hx⟩
    · obtain ⟨h1, h2⟩ := ih t ht
      simp only [skip] at h1 h2
      refine ⟨by omega, ?_⟩
      rw [drop_drop] at h2
      rw [show t.offset - h.offset = n + (t.offset - (h.offset + n)) by omega]
      exact h2

end bbcom.framing
