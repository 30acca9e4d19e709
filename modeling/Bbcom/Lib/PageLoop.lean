-- A loop over the pages of a server: it asks for the page at a place, takes the answer in, and
-- asks again at the place that the page names, until a page names none.
import Bbcom.Lib.Paging

namespace bbcom.page_loop

variable {ι κ α β ρ ε : Type*}

/-! ## The loop -/

inductive Phase (ι κ α ε : Type*)
  | waiting (request : ι) (place : κ) (taken : α)
  | done (taken : α)
  | failed (error : ε)
  deriving DecidableEq

/-- An answer that a loop has taken in, with the request that it was asked with. -/
structure Page (ι κ ρ : Type*) where
  request : ι
  place : κ
  answer : ρ
  deriving DecidableEq

structure Loop (ι κ α ρ ε : Type*) where
  phase : Phase ι κ α ε
  pages : List (Page ι κ ρ)
  deriving DecidableEq

def Loop.isWaiting (loop : Loop ι κ α ρ ε) : Bool :=
  match loop.phase with
  | .waiting _ _ _ => true
  | _ => false

/-- What a loop has, once it has all. -/
def Loop.result (loop : Loop ι κ α ρ ε) : Option α :=
  match loop.phase with
  | .done taken => some taken
  | _ => none

def Loop.failure (loop : Loop ι κ α ρ ε) : Option ε :=
  match loop.phase with
  | .failed error => some error
  | _ => none

variable {loop : Loop ι κ α ρ ε} {taken : α} {calls : Nat} {pages : List (Page ι κ ρ)} {place : κ}
  {rank : κ → Nat} {P : List (Page ι κ ρ) → α → Prop}

/-- A loop that neither waits nor has failed has all. -/
theorem Loop.result_of_ended (hwaiting : ¬loop.isWaiting) (hfailure : loop.failure = none) :
    ∃ taken, loop.result = some taken := by
  obtain ⟨phase, pages⟩ := loop
  cases phase with
  | waiting request place taken => exact absurd rfl hwaiting
  | done taken => exact ⟨taken, rfl⟩
  | failed error => cases hfailure

theorem Loop.not_waiting_of_result (h : loop.result = some taken) : ¬loop.isWaiting := by
  obtain ⟨phase, pages⟩ := loop
  cases phase with
  | waiting request place taken' => cases h
  | done taken' => simp [Loop.isWaiting]
  | failed error => cases h

/-- Ask for the page at a place. The requests are drawn from one counter. -/
def ask (draw : Nat → Except ε ι) (calls : Nat) (place : κ) (taken : α)
    (pages : List (Page ι κ ρ)) : Loop ι κ α ρ ε × Nat :=
  match draw calls with
  | .ok request => (⟨.waiting request place taken, pages⟩, calls + 1)
  | .error error => (⟨.failed error, pages⟩, calls + 1)

/-- The answer to the request that is out. `accept` takes a page in, to what there is already,
or refuses it. -/
def answer (accept : ι → κ → α → ρ → Except ε (α × Option κ)) (draw : Nat → Except ε ι)
    (calls : Nat) (loop : Loop ι κ α ρ ε) (response : Except ε ρ) : Loop ι κ α ρ ε × Nat :=
  match loop.phase with
  | .waiting request place taken =>
    match response with
    | .error error => (⟨.failed error, loop.pages⟩, calls)
    | .ok page =>
      match accept request place taken page with
      | .error error => (⟨.failed error, loop.pages⟩, calls)
      | .ok (taken', none) => (⟨.done taken', loop.pages ++ [⟨request, place, page⟩]⟩, calls)
      | .ok (taken', some place') =>
        ask draw calls place' taken' (loop.pages ++ [⟨request, place, page⟩])
  | _ => (loop, calls)

/-! ## What the pages lead to -/

variable {accept : ι → κ → α → ρ → Except ε (α × Option κ)} {draw : Nat → Except ε ι}
  {start : κ} {init : α}

/-- The pages that were taken in from the start on, what they have led to, and where they go
on. -/
inductive Reads (accept : ι → κ → α → ρ → Except ε (α × Option κ)) (start : κ) (init : α) :
    List (Page ι κ ρ) → α → Option κ → Prop
  | start : Reads accept start init [] init (some start)
  | page {pages : List (Page ι κ ρ)} {taken taken' : α} {request : ι} {place : κ}
      {next : Option κ} {page : ρ} (before : Reads accept start init pages taken (some place))
      (accepted : accept request place taken page = .ok (taken', next)) :
      Reads accept start init (pages ++ [⟨request, place, page⟩]) taken' next

/-- A loop stands where its pages lead to. -/
def Sound (accept : ι → κ → α → ρ → Except ε (α × Option κ)) (start : κ) (init : α)
    (loop : Loop ι κ α ρ ε) : Prop :=
  match loop.phase with
  | .waiting _ place taken => Reads accept start init loop.pages taken (some place)
  | .done taken => Reads accept start init loop.pages taken none
  | .failed _ => True

theorem sound_ask (h : Reads accept start init pages taken (some place)) :
    Sound accept start init (ask (ε := ε) draw calls place taken pages).1 := by
  unfold ask
  cases draw calls with
  | ok request => exact h
  | error error => exact trivial

theorem Sound.answer (h : Sound accept start init loop) (response : Except ε ρ) :
    Sound accept start init (answer accept draw calls loop response).1 := by
  obtain ⟨phase, pages⟩ := loop
  cases phase with
  | done taken => exact h
  | failed error => exact h
  | waiting request place taken =>
    unfold page_loop.answer
    cases response with
    | error error => exact trivial
    | ok page =>
      simp only
      cases haccept : accept request place taken page with
      | error error => exact trivial
      | ok next =>
        obtain ⟨taken', place'⟩ := next
        cases place' with
        | none => exact Reads.page h haccept
        | some place' => exact sound_ask (Reads.page h haccept)

@[simp] theorem ask_pages : (ask draw calls place taken pages).1.pages = pages := by
  unfold ask
  cases draw calls <;> rfl

/-- An answer adds one page at most. -/
theorem answer_pages (accept : ι → κ → α → ρ → Except ε (α × Option κ)) (draw : Nat → Except ε ι)
    (calls : Nat) (loop : Loop ι κ α ρ ε) (response : Except ε ρ) :
    (page_loop.answer accept draw calls loop response).1.pages = loop.pages ∨
      ∃ request place page, response = .ok page ∧
        (page_loop.answer accept draw calls loop response).1.pages =
          loop.pages ++ [⟨request, place, page⟩] := by
  obtain ⟨phase, pages⟩ := loop
  cases phase with
  | done taken => exact .inl rfl
  | failed error => exact .inl rfl
  | waiting request place taken =>
    unfold page_loop.answer
    cases response with
    | error error => exact .inl rfl
    | ok page =>
      simp only
      cases accept request place taken page with
      | error error => exact .inl rfl
      | ok next =>
        obtain ⟨taken', place'⟩ := next
        cases place' with
        | none => exact .inr ⟨request, place, page, rfl, rfl⟩
        | some place' => exact .inr ⟨request, place, page, rfl, ask_pages⟩

theorem phase_of_result (hdone : loop.result = some taken) : loop.phase = .done taken := by
  obtain ⟨phase, pages⟩ := loop
  cases phase with
  | done taken' =>
    cases hdone
    rfl
  | waiting request place taken' => cases hdone
  | failed error => cases hdone

theorem Sound.reads (h : Sound accept start init loop) (hdone : loop.result = some taken) :
    Reads accept start init loop.pages taken none := by
  rwa [Sound, phase_of_result hdone] at h

/-- Pages that follow each other: the first is asked for at a place, and each of the others where
the one before it goes on. -/
def Follows (named : ρ → Option κ) : Option κ → List (Page ι κ ρ) → Option κ → Prop
  | place, [], final => place = final
  | place, page :: rest, final =>
    place = some page.place ∧ Follows named (named page.answer) rest final

theorem Follows.snoc {named : ρ → Option κ} {place : Option κ} {page : Page ι κ ρ}
    (h : Follows named place pages (some page.place)) :
    Follows named place (pages ++ [page]) (named page.answer) := by
  induction pages generalizing place with
  | nil => exact ⟨h, rfl⟩
  | cons first rest ih => exact ⟨h.1, ih h.2⟩

section

variable {pages : List (Page ι κ ρ)} {taken : α} {next : Option κ}

section

variable (h : Reads accept start init pages taken next)
include h

theorem Reads.follows {named : ρ → Option κ} (hnamed : ∀ {request place taken page taken' next},
      accept request place taken page = .ok (taken', next) → named page = next) :
    Follows named (some start) pages next := by
  induction h with
  | start => exact rfl
  | page before accepted ih =>
    rw [← hnamed accepted]
    exact Follows.snoc ih

/-- What holds of each page that is accepted holds of the pages that were taken in. -/
theorem Reads.forall_pages {P : Page ι κ ρ → Prop}
    (hpage : ∀ {request place taken page taken' next},
      accept request place taken page = .ok (taken', next) → P ⟨request, place, page⟩) :
    ∀ page ∈ pages, P page := by
  induction h with
  | start => simp
  | page before accepted ih =>
    intro page hmem
    rcases List.mem_append.1 hmem with hmem | hmem
    · exact ih page hmem
    · rw [List.mem_singleton.1 hmem]
      exact hpage accepted

/-- What every page leads to holds of what the pages have led to. -/
theorem Reads.taken_of {P : α → Prop} (hinit : P init)
    (hpage : ∀ {request place taken page taken' next},
      accept request place taken page = .ok (taken', next) → P taken') : P taken := by
  cases h with
  | start => exact hinit
  | page before accepted => exact hpage accepted

end

/-- The rows of the pages, one page behind the other. -/
theorem Reads.collects {collected : α → List β} {rows : ρ → List β}
    (h : Reads accept start init pages taken next) (hinit : collected init = [])
    (hpage : ∀ {request place taken page taken' next},
      accept request place taken page = .ok (taken', next) →
        collected taken' = collected taken ++ rows page) :
    collected taken = pages.flatMap fun page => rows page.answer := by
  induction h with
  | start => exact hinit
  | page before accepted ih =>
    rw [hpage accepted, ih, List.flatMap_append, List.flatMap_singleton]

end

/-! ## A loop comes to an end -/

/-- The pages that a loop may still take in, if a place of rank `r` leaves `r` at most. -/
def weight (rank : κ → Nat) (loop : Loop ι κ α ρ ε) : Nat :=
  match loop.phase with
  | .waiting _ place _ => rank place
  | _ => 0

theorem weight_done (h : loop.result = some taken) : weight rank loop = 0 := by
  obtain ⟨phase, pages⟩ := loop
  cases phase with
  | waiting request place taken' => cases h
  | done taken' => rfl
  | failed error => rfl

theorem lt_weight {n : Nat} (hrank : ∀ place, n < rank place) (hwaiting : loop.isWaiting) :
    n < weight rank loop := by
  obtain ⟨phase, pages⟩ := loop
  cases phase with
  | waiting request place taken => exact hrank place
  | done taken => cases hwaiting
  | failed error => cases hwaiting

theorem weight_ask_le (rank : κ → Nat) (draw : Nat → Except ε ι) (calls : Nat) (place : κ)
    (taken : α) (pages : List (Page ι κ ρ)) :
    weight rank (ask draw calls place taken pages).1 ≤ rank place := by
  unfold ask
  cases draw calls with
  | ok request => exact le_rfl
  | error error => exact Nat.zero_le _

/-- Each page leads on to a place of a lower rank. -/
def Descends (accept : ι → κ → α → ρ → Except ε (α × Option κ)) (rank : κ → Nat) : Prop :=
  ∀ request place taken page taken' place',
    accept request place taken page = .ok (taken', some place') → rank place' < rank place

theorem weight_answer_lt (hrank : Descends accept rank) (hpos : ∀ place, 0 < rank place)
    (draw : Nat → Except ε ι) (calls : Nat) (hwaiting : loop.isWaiting) (response : Except ε ρ) :
    weight rank (answer accept draw calls loop response).1 < weight rank loop := by
  obtain ⟨phase, pages⟩ := loop
  cases phase with
  | done taken => cases hwaiting
  | failed error => cases hwaiting
  | waiting request place taken =>
    unfold answer
    cases response with
    | error error => exact hpos place
    | ok page =>
      simp only
      cases haccept : accept request place taken page with
      | error error => exact hpos place
      | ok next =>
        obtain ⟨taken', place'⟩ := next
        cases place' with
        | none => exact hpos place
        | some place' => exact lt_of_le_of_lt (weight_ask_le rank ..) (hrank _ _ _ _ _ _ haccept)

/-! ## What a loop has -/

/-- A fact about what a loop has, and about the pages that it has it from. -/
def Taken (P : List (Page ι κ ρ) → α → Prop) (loop : Loop ι κ α ρ ε) : Prop :=
  match loop.phase with
  | .waiting _ _ taken => P loop.pages taken
  | .done taken => P loop.pages taken
  | .failed _ => True

theorem taken_ask (h : P pages taken) : Taken P (ask draw calls place taken pages).1 := by
  unfold ask
  cases draw calls with
  | ok request => exact h
  | error error => exact trivial

theorem Taken.answer (h : Taken P loop) (response : Except ε ρ)
    (hpage : ∀ request place taken page taken' next, loop.phase = .waiting request place taken →
      response = .ok page → P loop.pages taken →
        accept request place taken page = .ok (taken', next) →
          P (loop.pages ++ [⟨request, place, page⟩]) taken') :
    Taken P (answer accept draw calls loop response).1 := by
  obtain ⟨phase, pages⟩ := loop
  cases phase with
  | done taken => exact h
  | failed error => exact h
  | waiting request place taken =>
    unfold page_loop.answer
    cases response with
    | error error => exact trivial
    | ok page =>
      simp only
      cases haccept : accept request place taken page with
      | error error => exact trivial
      | ok next =>
        obtain ⟨taken', place'⟩ := next
        have hnext := hpage request place taken page taken' place' rfl rfl h haccept
        cases place' with
        | none => exact hnext
        | some place' => exact taken_ask hnext

theorem Taken.of_result (h : Taken P loop) (hdone : loop.result = some taken) :
    P loop.pages taken := by
  rwa [Taken, phase_of_result hdone] at h

/-- A loop that has all has taken a page in. -/
theorem Reads.pages_ne_nil (h : Reads accept start init pages taken none) : pages ≠ [] := by
  generalize hnext : (none : Option κ) = next at h
  cases h with
  | start => cases hnext
  | page before accepted => simp

theorem ask_failure (hdraw : ∀ n, ∃ request, draw n = .ok request) :
    (ask (ε := ε) draw calls place taken pages).1.failure = none := by
  obtain ⟨request, hrequest⟩ := hdraw calls
  simp only [ask, hrequest]
  rfl

/-! ## A loop that is answered from one list -/

variable {lost : Prop} {left : κ → List β} {all : List β} {known : κ → Prop}
  {collected : α → List β}

/-- What a loop has is what was there, up to its place. `lost` is what follows if it has failed. -/
def Complete (lost : Prop) (known : κ → Prop) (left : κ → List β) (all : List β)
    (collected : α → List β) (loop : Loop ι κ α ρ ε) : Prop :=
  match loop.phase with
  | .waiting _ place taken => known place ∧ collected taken ++ left place = all
  | .done taken => collected taken = all
  | .failed _ => lost

theorem complete_ask (hdraw : ¬lost → ∀ n, ∃ request, draw n = .ok request) (hknown : known place)
    (h : collected taken ++ left place = all) :
    Complete lost known left all collected (ask (ε := ε) draw calls place taken pages).1 := by
  cases hrequest : draw calls with
  | ok request =>
    simp only [ask, hrequest]
    exact ⟨hknown, h⟩
  | error error =>
    simp only [ask, hrequest]
    by_contra hkept
    obtain ⟨request, hok⟩ := hdraw hkept calls
    rw [hok] at hrequest
    cases hrequest

section

variable (h : Complete lost known left all collected loop)
include h

theorem Complete.of_result (hdone : loop.result = some taken) : collected taken = all := by
  rwa [Complete, phase_of_result hdone] at h

theorem Complete.failure (hkept : ¬lost) : loop.failure = none := by
  obtain ⟨phase, pages⟩ := loop
  cases phase with
  | waiting request place taken => rfl
  | done taken => rfl
  | failed error => exact absurd h hkept

/-- A page of the list that is taken in leads on in the list. -/
theorem Complete.answer (hdraw : ¬lost → ∀ n, ∃ request, draw n = .ok request)
    {response : Except ε ρ}
    (haccept : ∀ request place taken, loop.phase = .waiting request place taken →
      known place → collected taken ++ left place = all →
        ∃ page, response = .ok page ∧
          (∀ taken' next, accept request place taken page = .ok (taken', next) →
            ∃ rows, collected taken' = collected taken ++ rows ∧
              paging.Serves known left place rows next) ∧
          (¬lost → ∃ accepted, accept request place taken page = .ok accepted)) :
    Complete lost known left all collected (answer accept draw calls loop response).1 := by
  obtain ⟨phase, pages⟩ := loop
  cases phase with
  | done taken => exact h
  | failed error => exact h
  | waiting request place taken =>
    obtain ⟨hknown, hall⟩ := h
    obtain ⟨page, rfl, hserved, htaken⟩ := haccept request place taken rfl hknown hall
    cases haccepted : accept request place taken page with
    | error error =>
      simp only [page_loop.answer, haccepted]
      by_contra hkept
      obtain ⟨accepted, hok⟩ := htaken hkept
      rw [hok] at haccepted
      cases haccepted
    | ok accepted =>
      obtain ⟨taken', next⟩ := accepted
      obtain ⟨rows, hcollected, hserves⟩ := hserved taken' next haccepted
      simp only [page_loop.answer, haccepted]
      cases hserves with
      | last hrest =>
        show collected taken' = all
        rw [hcollected, ← hrest, hall]
      | more place' hsome hsplit hreads =>
        apply complete_ask hdraw hreads
        rw [hcollected, List.append_assoc, ← hsplit, hall]

end

end bbcom.page_loop
