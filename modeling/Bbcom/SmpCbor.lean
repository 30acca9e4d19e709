-- The token pass in front of the CBOR decoder (`mcumgr-smp-cbor.ts`): which token sequences it
-- lets through.
import Bbcom.Js

open bbcom.js

namespace bbcom.smp_cbor

open List Option Except

/-! ## Tokens -/

def MAX_SAFE_INTEGER : Nat := 2 ^ 53 - 1

/-- A length as the tokenizer reads it. -/
structure SafeLength where
  val : Nat
  safe : val ≤ MAX_SAFE_INTEGER

/-- The types of the tokens that stand for a value of their own, bytes apart. -/
inductive ScalarType
  | uint | negint | string | float | false | true | null | undefined
  deriving DecidableEq

/-- What `Tokenizer.next` gives. A length that is not there stands for `Infinity`. -/
inductive Token
  | scalar (type : ScalarType)
  | bytes (value : Uint8Array)
  | array (length : Option SafeLength)
  | map (pairs : Option SafeLength)
  | tag (number : Nat)
  | stop

/-! ## The pass -/

def MAX_SMP_CBOR_BIGNUM_BYTES : Nat := 4096

/-- No `remaining` stands for a container of indefinite length. -/
structure ContainerBudget where
  remaining : Option Nat
  bignum : Bool := false
  deriving DecidableEq

def numberLength (value : Nat) : Except String Nat :=
  if value ≤ MAX_SAFE_INTEGER then .ok value else .error "CBOR container length is invalid"

def consumeContainerSlot (container : ContainerBudget) : Except String ContainerBudget :=
  match container.remaining with
  | none => .ok container
  | some 0 => .error "CBOR container has too many values"
  | some (n + 1) => .ok { container with remaining := some n }

/-- The top of the stack is its first element. -/
def collapseCompletedContainers (stack : List ContainerBudget) : List ContainerBudget :=
  stack.dropWhile (·.remaining = some 0)

structure Preflight where
  stack : List ContainerBudget
  nodes : Nat
  roots : Nat

/-- `childCount` with `bignum`: what a token opens. -/
def opened : Token → Except String (Option ContainerBudget)
  | .array none => .ok (some { remaining := none })
  | .array (some length) => do
    let length ← numberLength length.val
    .ok (some { remaining := some length })
  | .map none => .ok (some { remaining := none })
  | .map (some pairs) => do
    -- A payload is too short for a count above the safe integers to be used up.
    let pairs ← numberLength pairs.val
    .ok (some { remaining := some (pairs * 2) })
  | .tag number => .ok (some { remaining := some 1, bignum := number = 2 ∨ number = 3 })
  | _ => .ok none

@[simp] theorem opened_array (length : SafeLength) :
    opened (.array (some length)) = .ok (some { remaining := some length.val }) := by
  simp only [opened, numberLength, if_pos length.safe]
  rfl

@[simp] theorem opened_map (pairs : SafeLength) :
    opened (.map (some pairs)) = .ok (some { remaining := some (pairs.val * 2) }) := by
  simp only [opened, numberLength, if_pos pairs.safe]
  rfl

/-- What may stand in the tag of a bignum. -/
def bignumContent : Token → Bool
  | .bytes value => value.length ≤ MAX_SMP_CBOR_BIGNUM_BYTES
  | _ => false

/-- The slot that a token takes: in the container at the top, or that of the root. -/
def takeSlot (s : Preflight) : Except String Preflight :=
  match s.stack with
  | [] =>
    if s.roots + 1 > 1 then .error "CBOR payload contains trailing values"
    else .ok { s with roots := s.roots + 1 }
  | container :: stack => do
    let container ← consumeContainerSlot container
    .ok { s with stack := container :: stack }

variable (maxDepth maxNodes : Nat)

/-- A turn of the loop. -/
def step (s : Preflight) (token : Token) : Except String Preflight :=
  match token with
  | .stop =>
    match s.stack with
    | ⟨none, _⟩ :: stack => .ok { s with stack := collapseCompletedContainers stack }
    | _ => .error "CBOR contains an unexpected break marker"
  | token =>
    if s.stack.head?.any (·.bignum) ∧ !bignumContent token then
      .error s!"CBOR bignum must be a byte string of at most {MAX_SMP_CBOR_BIGNUM_BYTES} bytes"
    else if s.nodes + 1 > maxNodes then .error s!"CBOR exceeds {maxNodes} nodes"
    else do
      let s ← takeSlot { s with nodes := s.nodes + 1 }
      let child ← opened token
      match child with
      | none => .ok { s with stack := collapseCompletedContainers s.stack }
      | some child =>
        if (child :: s.stack).length > maxDepth then .error s!"CBOR exceeds depth {maxDepth}"
        else .ok { s with stack := collapseCompletedContainers (child :: s.stack) }

/-- The checks behind the loop. -/
def Preflight.finish (s : Preflight) : Except String Unit :=
  if s.roots ≠ 1 then .error "CBOR payload does not contain a value"
  else if s.stack.length > 0 then .error "CBOR container is incomplete"
  else .ok ()

def preflightCbor (tokens : List Token) : Except String Unit := do
  let s ← tokens.foldlM (step maxDepth maxNodes) ⟨[], 0, 0⟩
  s.finish

/-! ## Data items -/

/-- `count` data items one behind the other, each its token with what it contains behind it, and
containers and tags at most `room` deep. `entries` says how many items may stand in a map of
indefinite length. -/
inductive Items (entries : Nat → Prop) : Nat → Nat → List Token → Prop
  | nil {room : Nat} : Items entries room 0 []
  | scalar {room count : Nat} {rest : List Token} (type : ScalarType)
      (hrest : Items entries room count rest) :
      Items entries room (count + 1) (.scalar type :: rest)
  | bytes {room count : Nat} {rest : List Token} (value : Uint8Array)
      (hrest : Items entries room count rest) :
      Items entries room (count + 1) (.bytes value :: rest)
  | array {room count : Nat} {content rest : List Token} (length : SafeLength)
      (hcontent : Items entries room length.val content)
      (hrest : Items entries (room + 1) count rest) :
      Items entries (room + 1) (count + 1) (.array (some length) :: (content ++ rest))
  | openArray {room count items : Nat} {content rest : List Token}
      (hcontent : Items entries room items content)
      (hrest : Items entries (room + 1) count rest) :
      Items entries (room + 1) (count + 1) (.array none :: (content ++ .stop :: rest))
  | map {room count : Nat} {content rest : List Token} (pairs : SafeLength)
      (hcontent : Items entries room (pairs.val * 2) content)
      (hrest : Items entries (room + 1) count rest) :
      Items entries (room + 1) (count + 1) (.map (some pairs) :: (content ++ rest))
  | openMap {room count items : Nat} {content rest : List Token} (hentries : entries items)
      (hcontent : Items entries room items content)
      (hrest : Items entries (room + 1) count rest) :
      Items entries (room + 1) (count + 1) (.map none :: (content ++ .stop :: rest))
  | tag {room count number : Nat} {content rest : List Token} (hnumber : number ≠ 2 ∧ number ≠ 3)
      (hcontent : Items entries room 1 content)
      (hrest : Items entries (room + 1) count rest) :
      Items entries (room + 1) (count + 1) (.tag number :: (content ++ rest))
  | bignum {room count number : Nat} {rest : List Token} (hnumber : number = 2 ∨ number = 3)
      (value : Uint8Array) (hvalue : value.length ≤ MAX_SMP_CBOR_BIGNUM_BYTES)
      (hrest : Items entries (room + 1) count rest) :
      Items entries (room + 1) (count + 1) (.tag number :: .bytes value :: rest)

/-- Every token but a break is a node. -/
def nodeCount (tokens : List Token) : Nat :=
  (tokens.filter fun token => match token with
    | .stop => false
    | _ => true).length

/-! ## What still fits -/

/-- Any number of items may stand in a map of indefinite length. -/
def anyEntries (_ : Nat) : Prop := True

/-- The content of a container, or of the tag of a bignum. -/
def Content (room : Nat) : Bool → Nat → List Token → Prop
  | false, count, tokens => Items anyEntries room count tokens
  | true, count, tokens => tokens.length = count ∧ ∀ token ∈ tokens, bignumContent token = true

/-- What a container still takes, up to its break if it has one. -/
def Fills (room : Nat) (container : ContainerBudget) (tokens : List Token) : Prop :=
  match container.remaining with
  | some count => Content room container.bignum count tokens
  | none => ∃ count content, tokens = content ++ [.stop] ∧
    Content room container.bignum count content

/-- What closes all containers of the stack, the top first. -/
def Closes (maxDepth : Nat) : List ContainerBudget → List Token → Prop
  | [], tokens => tokens = []
  | container :: stack, tokens => ∃ inner rest, tokens = inner ++ rest ∧
    Fills (maxDepth - (stack.length + 1)) container inner ∧ Closes maxDepth stack rest

section

variable {room count : Nat} {bignum : Bool} {token : Token} {tokens : List Token}
variable {container child : ContainerBudget} {stack : List ContainerBudget} {maxDepth : Nat}

theorem content_nil : Content room bignum count [] ↔ count = 0 := by
  cases bignum with
  | false =>
    constructor
    · intro h
      cases h
      rfl
    · rintro rfl
      exact .nil
  | true =>
    constructor
    · exact fun h => h.1.symm
    · rintro rfl
      exact ⟨rfl, by simp⟩

theorem content_zero : Content room bignum 0 tokens ↔ tokens = [] := by
  cases bignum with
  | false =>
    constructor
    · intro h
      cases h
      rfl
    · rintro rfl
      exact .nil
  | true => simp +contextual [Content]

theorem content_stop : ¬Content room bignum count (.stop :: tokens) := by
  cases bignum with
  | false =>
    intro h
    cases h
  | true => simp [Content, bignumContent]

/-- A token that stands for itself. -/
theorem content_leaf (hleaf : opened token = .ok none) (hstop : token ≠ .stop) :
    Content room bignum count (token :: tokens) ↔ (bignum = true → bignumContent token = true) ∧
      ∃ more, count = more + 1 ∧ Content room bignum more tokens := by
  cases bignum with
  | false =>
    cases token with
    | scalar type =>
      constructor
      · rintro (_ | ⟨_, hrest⟩)
        exact ⟨fun h => (Bool.false_ne_true h).elim, _, rfl, hrest⟩
      · rintro ⟨_, more, rfl, hrest⟩
        exact .scalar type hrest
    | bytes value =>
      constructor
      · intro h
        cases h with
        | bytes _ hrest => exact ⟨fun h => (Bool.false_ne_true h).elim, _, rfl, hrest⟩
      · rintro ⟨_, more, rfl, hrest⟩
        exact .bytes value hrest
    | stop => exact absurd rfl hstop
    | array length =>
      cases length with
      | none => simp [opened] at hleaf
      | some length => simp at hleaf
    | map pairs =>
      cases pairs with
      | none => simp [opened] at hleaf
      | some pairs => simp at hleaf
    | tag number => simp [opened] at hleaf
  | true =>
    simp only [Content, length_cons, forall_mem_cons]
    constructor
    · rintro ⟨rfl, hfirst, hrest⟩
      exact ⟨fun _ => hfirst, _, rfl, rfl, hrest⟩
    · rintro ⟨hfirst, more, rfl, rfl, hrest⟩
      exact ⟨rfl, hfirst trivial, hrest⟩

theorem stop_of_opened_leaf (h : opened token = .ok (some child)) :
    bignumContent token = false ∧ token ≠ .stop := by
  cases token with
  | scalar type => simp [opened] at h
  | bytes value => simp [opened] at h
  | stop => simp [opened] at h
  | array length => exact ⟨rfl, by simp⟩
  | map pairs => exact ⟨rfl, by simp⟩
  | tag number => exact ⟨rfl, by simp⟩

theorem fills_definite :
    Fills room ⟨some count, bignum⟩ tokens ↔ Content room bignum count tokens := Iff.rfl

theorem fills_indefinite : Fills room ⟨none, bignum⟩ tokens ↔
    ∃ count content, tokens = content ++ [.stop] ∧ Content room bignum count content := Iff.rfl

/-- The content of the tag of a bignum is one small byte string. -/
theorem content_bignum : Content room true 1 tokens ↔
    ∃ value, tokens = [.bytes value] ∧ value.length ≤ MAX_SMP_CBOR_BIGNUM_BYTES := by
  constructor
  · rintro ⟨hone, hcontent⟩
    obtain ⟨token, rfl⟩ := length_eq_one_iff.1 hone
    have htoken := hcontent token (mem_singleton_self _)
    cases token with
    | bytes value => exact ⟨value, rfl, by simpa [bignumContent] using htoken⟩
    | _ => simp [bignumContent] at htoken
  · rintro ⟨value, rfl, hvalue⟩
    exact ⟨rfl, by simpa [bignumContent] using hvalue⟩

/-- A token that opens a container, or a tag. -/
theorem content_open (hopen : opened token = .ok (some child)) :
    Content room bignum count (token :: tokens) ↔ bignum = false ∧
      ∃ more inner rest deeper, count = more + 1 ∧ room = deeper + 1 ∧ tokens = inner ++ rest ∧
        Fills deeper child inner ∧ Content room false more rest := by
  obtain ⟨hbignum, hstop⟩ := stop_of_opened_leaf hopen
  cases bignum with
  | true => simp [Content, hbignum]
  | false =>
    constructor
    · intro h
      refine ⟨rfl, ?_⟩
      cases h with
      | scalar type hrest => simp [opened] at hopen
      | bytes value hrest => simp [opened] at hopen
      | @array deeper more content rest length hcontent hrest =>
        simp only [opened_array, ok.injEq, some.injEq] at hopen
        subst hopen
        exact ⟨more, content, rest, deeper, rfl, rfl, rfl, hcontent, hrest⟩
      | @openArray deeper more items content rest hcontent hrest =>
        cases hopen
        exact ⟨more, content ++ [.stop], rest, deeper, rfl, rfl, by simp,
          ⟨items, content, rfl, hcontent⟩, hrest⟩
      | @map deeper more content rest pairs hcontent hrest =>
        simp only [opened_map, ok.injEq, some.injEq] at hopen
        subst hopen
        exact ⟨more, content, rest, deeper, rfl, rfl, rfl, hcontent, hrest⟩
      | @openMap deeper more items content rest _ hcontent hrest =>
        cases hopen
        exact ⟨more, content ++ [.stop], rest, deeper, rfl, rfl, by simp,
          ⟨items, content, rfl, hcontent⟩, hrest⟩
      | @tag deeper more number content rest hnumber hcontent hrest =>
        cases hopen
        refine ⟨more, content, rest, deeper, rfl, rfl, rfl, ?_, hrest⟩
        rw [fills_definite, decide_eq_false (not_or.2 hnumber)]
        exact hcontent
      | @bignum deeper more number rest hnumber value hvalue hrest =>
        cases hopen
        refine ⟨more, [.bytes value], rest, deeper, rfl, rfl, rfl, ?_, hrest⟩
        rw [fills_definite, decide_eq_true hnumber]
        exact content_bignum.2 ⟨value, rfl, hvalue⟩
    · rintro ⟨_, more, inner, rest, deeper, rfl, rfl, rfl, hinner, hrest⟩
      cases token with
      | scalar type => simp [opened] at hopen
      | bytes value => simp [opened] at hopen
      | stop => exact absurd rfl hstop
      | array length =>
        cases length with
        | none =>
          cases hopen
          obtain ⟨items, content, rfl, hcontent⟩ := hinner
          rw [append_assoc]
          exact .openArray hcontent hrest
        | some length =>
          simp only [opened_array, ok.injEq, some.injEq] at hopen
          subst hopen
          exact .array length hinner hrest
      | map pairs =>
        cases pairs with
        | none =>
          cases hopen
          obtain ⟨items, content, rfl, hcontent⟩ := hinner
          rw [append_assoc]
          exact .openMap trivial hcontent hrest
        | some pairs =>
          simp only [opened_map, ok.injEq, some.injEq] at hopen
          subst hopen
          exact .map pairs hinner hrest
      | tag number =>
        cases hopen
        rw [fills_definite] at hinner
        by_cases hnumber : number = 2 ∨ number = 3
        · rw [decide_eq_true hnumber] at hinner
          obtain ⟨value, rfl, hvalue⟩ := content_bignum.1 hinner
          exact .bignum hnumber value hvalue hrest
        · rw [decide_eq_false hnumber] at hinner
          exact .tag (not_or.1 hnumber) hinner hrest

/-! ## What a container still takes -/

theorem fills_nil : Fills room container [] ↔ container.remaining = some 0 := by
  obtain ⟨remaining, bignum⟩ := container
  cases remaining with
  | none => simp [fills_indefinite]
  | some count => simp [fills_definite, content_nil]

theorem fills_done : Fills room ⟨some 0, bignum⟩ tokens ↔ tokens = [] := by
  rw [fills_definite, content_zero]

theorem fills_stop :
    Fills room container (.stop :: tokens) ↔ container.remaining = none ∧ tokens = [] := by
  obtain ⟨remaining, bignum⟩ := container
  cases remaining with
  | none =>
    rw [fills_indefinite]
    constructor
    · rintro ⟨count, content, hcontent, hfills⟩
      cases content with
      | nil => exact ⟨rfl, by simpa using hcontent⟩
      | cons first content =>
        obtain ⟨rfl, _⟩ : Token.stop = first ∧ _ := by simpa using hcontent
        exact absurd hfills content_stop
    · rintro ⟨_, rfl⟩
      exact ⟨0, [], rfl, content_nil.2 rfl⟩
  | some count => simp [fills_definite, content_stop]

theorem fills_leaf (hleaf : opened token = .ok none) (hstop : token ≠ .stop) :
    Fills room container (token :: tokens) ↔
      (container.bignum = true → bignumContent token = true) ∧
        ∃ left, consumeContainerSlot container = .ok left ∧ Fills room left tokens := by
  obtain ⟨remaining, bignum⟩ := container
  cases remaining with
  | some count =>
    rw [fills_definite, content_leaf hleaf hstop]
    cases count with
    | zero => simp [consumeContainerSlot]
    | succ count => simp [consumeContainerSlot, fills_definite]
  | none =>
    simp only [fills_indefinite, consumeContainerSlot, ok.injEq, exists_eq_left']
    constructor
    · rintro ⟨count, content, hcontent, hfills⟩
      cases content with
      | nil => exact absurd (cons.inj hcontent).1 hstop
      | cons first content =>
        obtain ⟨rfl, rfl⟩ : token = first ∧ tokens = content ++ [.stop] := by simpa using hcontent
        obtain ⟨hbignum, more, _, hmore⟩ := (content_leaf hleaf hstop).1 hfills
        exact ⟨hbignum, more, content, rfl, hmore⟩
    · rintro ⟨hbignum, count, content, rfl, hfills⟩
      exact ⟨count + 1, token :: content, rfl,
        (content_leaf hleaf hstop).2 ⟨hbignum, count, rfl, hfills⟩⟩

theorem fills_open (hopen : opened token = .ok (some child)) :
    Fills room container (token :: tokens) ↔ container.bignum = false ∧
      ∃ left inner rest deeper, consumeContainerSlot container = .ok left ∧ room = deeper + 1 ∧
        tokens = inner ++ rest ∧ Fills deeper child inner ∧ Fills room left rest := by
  obtain ⟨hsmall, hstop⟩ := stop_of_opened_leaf hopen
  obtain ⟨remaining, bignum⟩ := container
  cases remaining with
  | some count =>
    rw [fills_definite, content_open hopen]
    constructor
    · rintro ⟨rfl, more, inner, rest, deeper, rfl, rfl, rfl, hinner, hrest⟩
      exact ⟨rfl, ⟨some more, false⟩, inner, rest, deeper, rfl, rfl, rfl, hinner, hrest⟩
    · rintro ⟨hbignum, left, inner, rest, deeper, hleft, rfl, rfl, hinner, hrest⟩
      obtain rfl : bignum = false := hbignum
      cases count with
      | zero => simp [consumeContainerSlot] at hleft
      | succ count =>
        obtain rfl : (⟨some count, false⟩ : ContainerBudget) = left := by
          simpa [consumeContainerSlot] using hleft
        exact ⟨rfl, count, inner, rest, deeper, rfl, rfl, rfl, hinner, hrest⟩
  | none =>
    simp only [fills_indefinite, consumeContainerSlot, ok.injEq, exists_and_left, exists_eq_left']
    constructor
    · rintro ⟨count, content, hcontent, hfills⟩
      cases content with
      | nil => exact absurd (cons.inj hcontent).1 hstop
      | cons first content =>
        obtain ⟨rfl, rfl⟩ : token = first ∧ tokens = content ++ [.stop] := by simpa using hcontent
        obtain ⟨rfl, more, inner, rest, deeper, _, rfl, rfl, hinner, hrest⟩ :=
          (content_open hopen).1 hfills
        exact ⟨rfl, inner, rest ++ [.stop], deeper, rfl, by simp, hinner, more, rest, rfl, hrest⟩
    · rintro ⟨hbignum, inner, rest, deeper, rfl, rfl, hinner, count, content, rfl, hrest⟩
      obtain rfl : bignum = false := hbignum
      refine ⟨count + 1, token :: (inner ++ content), by simp, ?_⟩
      exact (content_open hopen).2
        ⟨rfl, count, inner, content, deeper, rfl, rfl, rfl, hinner, hrest⟩

/-! ## What closes the stack -/

/-- The container at the top still waits for something. -/
def Waiting (stack : List ContainerBudget) : Prop :=
  ∀ container ∈ stack.head?, container.remaining ≠ some 0

theorem waiting_collapse (stack : List ContainerBudget) :
    Waiting (collapseCompletedContainers stack) := by
  intro container hcontainer hdone
  have hkept := head?_dropWhile_not (fun c : ContainerBudget => decide (c.remaining = some 0))
    stack
  rw [collapseCompletedContainers] at hcontainer
  rw [mem_def.1 hcontainer] at hkept
  simp [hdone] at hkept

theorem closes_done :
    Closes maxDepth (⟨some 0, bignum⟩ :: stack) tokens ↔ Closes maxDepth stack tokens := by
  constructor
  · rintro ⟨inner, rest, rfl, hinner, hrest⟩
    obtain rfl := fills_done.1 hinner
    exact hrest
  · exact fun h => ⟨[], tokens, rfl, fills_done.2 rfl, h⟩

/-- Containers that are complete need nothing. -/
theorem closes_collapse :
    Closes maxDepth (collapseCompletedContainers stack) tokens ↔ Closes maxDepth stack tokens := by
  induction stack with
  | nil => rfl
  | cons container stack ih =>
    obtain ⟨remaining, bignum⟩ := container
    by_cases hdone : remaining = some 0
    · subst hdone
      rw [closes_done, ← ih]
      rfl
    · rw [collapseCompletedContainers, dropWhile_cons_of_neg (by simpa using hdone)]

theorem closes_nil (hwaiting : Waiting stack) : Closes maxDepth stack [] ↔ stack = [] := by
  cases stack with
  | nil => simp [Closes]
  | cons container stack =>
    refine iff_of_false ?_ (cons_ne_nil _ _)
    rintro ⟨inner, rest, hnil, hinner, _⟩
    obtain ⟨rfl, rfl⟩ := append_eq_nil_iff.1 hnil.symm
    exact hwaiting container rfl (fills_nil.1 hinner)

section

variable (hwaiting : Waiting (container :: stack))
include hwaiting

/-- The first token goes into the container at the top. -/
theorem closes_cons :
    Closes maxDepth (container :: stack) (token :: tokens) ↔ ∃ inner rest, tokens = inner ++ rest ∧
        Fills (maxDepth - (stack.length + 1)) container (token :: inner) ∧
        Closes maxDepth stack rest := by
  constructor
  · rintro ⟨inner, rest, htokens, hinner, hrest⟩
    cases inner with
    | nil => exact absurd (fills_nil.1 hinner) (hwaiting container rfl)
    | cons first inner =>
      obtain ⟨rfl, rfl⟩ := cons.inj htokens
      exact ⟨inner, rest, rfl, hinner, hrest⟩
  · rintro ⟨inner, rest, rfl, hinner, hrest⟩
    exact ⟨token :: inner, rest, rfl, hinner, hrest⟩

theorem closes_stop :
    Closes maxDepth (container :: stack) (.stop :: tokens) ↔
      container.remaining = none ∧ Closes maxDepth stack tokens := by
  rw [closes_cons hwaiting]
  constructor
  · rintro ⟨inner, rest, rfl, hinner, hrest⟩
    obtain ⟨hnone, rfl⟩ := fills_stop.1 hinner
    exact ⟨hnone, hrest⟩
  · exact fun ⟨hnone, hrest⟩ => ⟨[], tokens, rfl, fills_stop.2 ⟨hnone, rfl⟩, hrest⟩

theorem closes_leaf (hleaf : opened token = .ok none) (hstop : token ≠ .stop) :
    Closes maxDepth (container :: stack) (token :: tokens) ↔
      (container.bignum = true → bignumContent token = true) ∧
        ∃ left, consumeContainerSlot container = .ok left ∧
          Closes maxDepth (left :: stack) tokens := by
  rw [closes_cons hwaiting]
  constructor
  · rintro ⟨inner, rest, rfl, hinner, hrest⟩
    obtain ⟨hbignum, left, hleft, hfills⟩ := (fills_leaf hleaf hstop).1 hinner
    exact ⟨hbignum, left, hleft, inner, rest, rfl, hfills, hrest⟩
  · rintro ⟨hbignum, left, hleft, inner, rest, rfl, hfills, hrest⟩
    exact ⟨inner, rest, rfl, (fills_leaf hleaf hstop).2 ⟨hbignum, left, hleft, hfills⟩, hrest⟩

theorem closes_open (hopen : opened token = .ok (some child)) :
    Closes maxDepth (container :: stack) (token :: tokens) ↔ container.bignum = false ∧
      ∃ left, consumeContainerSlot container = .ok left ∧ stack.length + 2 ≤ maxDepth ∧
        Closes maxDepth (child :: left :: stack) tokens := by
  rw [closes_cons hwaiting]
  constructor
  · rintro ⟨inner, rest, rfl, hinner, hrest⟩
    obtain ⟨hbignum, left, first, more, deeper, hleft, hroom, rfl, hfirst, hmore⟩ :=
      (fills_open hopen).1 hinner
    have hdeeper : deeper = maxDepth - ((left :: stack).length + 1) := by
      rw [length_cons]
      omega
    refine ⟨hbignum, left, hleft, by omega, first, more ++ rest, by simp, hdeeper ▸ hfirst, ?_⟩
    exact ⟨more, rest, rfl, hmore, hrest⟩
  · rintro ⟨hbignum, left, hleft, hdepth, first, _, rfl, hfirst, more, rest, rfl, hmore, hrest⟩
    refine ⟨first ++ more, rest, by simp, (fills_open hopen).2 ?_, hrest⟩
    exact ⟨hbignum, left, first, more, maxDepth - (stack.length + 2), hleft, by omega, rfl, hfirst,
      hmore⟩

end

end

/-! ## The loop -/

section

variable {maxDepth maxNodes : Nat} {s : Preflight} {token : Token} {tokens : List Token}

/-- The pass lets the tokens through from here on. -/
def Passes (maxDepth maxNodes : Nat) (s : Preflight) (tokens : List Token) : Prop :=
  (do
    let s ← tokens.foldlM (step maxDepth maxNodes) s
    s.finish) = .ok ()

theorem passes_nil : Passes maxDepth maxNodes s [] ↔ s.roots = 1 ∧ s.stack = [] := by
  change s.finish = .ok () ↔ _
  unfold Preflight.finish
  split_ifs with hroots hopen
  · simp [hroots]
  · simp [ne_nil_of_length_pos hopen]
  · simpa using ⟨not_not.1 hroots, length_eq_zero_iff.1 (Nat.eq_zero_of_not_pos hopen)⟩

theorem passes_cons : Passes maxDepth maxNodes s (token :: tokens) ↔
    ∃ next, step maxDepth maxNodes s token = .ok next ∧ Passes maxDepth maxNodes next tokens := by
  unfold Passes
  rw [foldlM_cons]
  cases step maxDepth maxNodes s token with
  | error message =>
    refine iff_of_false ?_ (by simp)
    exact fun h => nomatch h
  | ok next =>
    simp only [ok.injEq, exists_eq_left']
    exact Iff.rfl

theorem nodeCount_cons (hstop : token ≠ .stop) :
    nodeCount (token :: tokens) = nodeCount tokens + 1 := by
  cases token <;> first | rfl | exact absurd rfl hstop

theorem nodeCount_stop : nodeCount (.stop :: tokens) = nodeCount tokens := rfl

/-- What the pass makes of a value: it takes a slot, and may open a container in its place. -/
theorem step_ok (hstop : token ≠ .stop) {next : Preflight} :
    step maxDepth maxNodes s token = .ok next ↔
      (s.stack.head?.any (·.bignum) = true → bignumContent token = true) ∧
      s.nodes + 1 ≤ maxNodes ∧ ∃ taken child, takeSlot { s with nodes := s.nodes + 1 } = .ok taken ∧
        opened token = .ok child ∧ (∀ opens ∈ child, (opens :: taken.stack).length ≤ maxDepth) ∧
        next = { taken with
          stack := collapseCompletedContainers (child.toList ++ taken.stack) } := by
  have hstep : step maxDepth maxNodes s token =
      if s.stack.head?.any (·.bignum) ∧ !bignumContent token then
        .error s!"CBOR bignum must be a byte string of at most {MAX_SMP_CBOR_BIGNUM_BYTES} bytes"
      else if s.nodes + 1 > maxNodes then .error s!"CBOR exceeds {maxNodes} nodes"
      else (do
        let s ← takeSlot { s with nodes := s.nodes + 1 }
        let child ← opened token
        match child with
        | none => .ok { s with stack := collapseCompletedContainers s.stack }
        | some child =>
          if (child :: s.stack).length > maxDepth then .error s!"CBOR exceeds depth {maxDepth}"
          else .ok { s with stack := collapseCompletedContainers (child :: s.stack) }) := by
    cases token <;> first | rfl | exact absurd rfl hstop
  rw [hstep]
  split_ifs with hbignum hnodes
  · refine iff_of_false (by simp) fun h => ?_
    simp [h.1 hbignum.1] at hbignum
  · exact iff_of_false (by simp) fun h => by omega
  · have hsmall : s.stack.head?.any (·.bignum) = true → bignumContent token = true := by
      intro htag
      by_contra hnot
      exact hbignum ⟨htag, by simpa using hnot⟩
    have hroom : s.nodes + 1 ≤ maxNodes := by omega
    cases takeSlot { s with nodes := s.nodes + 1 } with
    | error message => exact iff_of_false (fun h => nomatch h) (by simp)
    | ok taken =>
      cases opened token with
      | error message => exact iff_of_false (fun h => nomatch h) (by simp)
      | ok child =>
        cases child with
        | none =>
          constructor
          · intro h
            exact ⟨hsmall, hroom, taken, none, rfl, rfl, by simp, (Except.ok.inj h).symm⟩
          · rintro ⟨_, _, _, _, htaken, hchild, _, rfl⟩
            cases htaken
            cases hchild
            rfl
        | some child =>
          simp only [bind, Except.bind]
          split_ifs with hdeep
          · refine iff_of_false (by simp) ?_
            rintro ⟨_, _, _, _, htaken, hchild, hfits, _⟩
            cases htaken
            cases hchild
            exact absurd (hfits child rfl) (not_le.2 hdeep)
          · constructor
            · intro h
              refine ⟨hsmall, hroom, taken, some child, rfl, rfl, ?_, (Except.ok.inj h).symm⟩
              rintro _ ⟨⟩
              exact not_lt.1 hdeep
            · rintro ⟨_, _, _, _, htaken, hchild, _, rfl⟩
              cases htaken
              cases hchild
              rfl

theorem opened_known (token : Token) : ∃ child, opened token = .ok child := by
  cases token with
  | array length =>
    cases length with
    | none => exact ⟨_, rfl⟩
    | some length => exact ⟨_, opened_array length⟩
  | map pairs =>
    cases pairs with
    | none => exact ⟨_, rfl⟩
    | some pairs => exact ⟨_, opened_map pairs⟩
  | _ => exact ⟨_, rfl⟩

/-- From within the root, the pass lets exactly those tokens through that close the stack and
are not too many. -/
theorem passes_iff (tokens : List Token) : ∀ {stack : List ContainerBudget} {nodes : Nat},
    Waiting stack → nodes ≤ maxNodes →
      (Passes maxDepth maxNodes ⟨stack, nodes, 1⟩ tokens ↔
        Closes maxDepth stack tokens ∧ nodes + nodeCount tokens ≤ maxNodes) := by
  induction tokens with
  | nil =>
    intro stack nodes hwaiting hnodes
    rw [passes_nil, closes_nil hwaiting]
    simp [nodeCount, hnodes]
  | cons token tokens ih =>
    intro stack nodes hwaiting hnodes
    rw [passes_cons]
    cases stack with
    | nil =>
      refine iff_of_false ?_ (fun h => cons_ne_nil _ _ h.1)
      rintro ⟨next, hstep, _⟩
      by_cases hstop : token = .stop
      · subst hstop
        simp [step] at hstep
      · obtain ⟨_, _, taken, _, htaken, _⟩ := (step_ok hstop).1 hstep
        simp [takeSlot] at htaken
    | cons container stack =>
      by_cases hstop : token = .stop
      · subst hstop
        rw [closes_stop hwaiting, nodeCount_stop]
        obtain ⟨remaining, bignum⟩ := container
        cases remaining with
        | some count => simp [step]
        | none =>
          simp only [step, ok.injEq, exists_eq_left', true_and]
          rw [ih (waiting_collapse stack) hnodes, closes_collapse]
      · obtain ⟨child, hchild⟩ := opened_known token
        rw [nodeCount_cons hstop]
        have htake : ∀ taken, takeSlot ⟨container :: stack, nodes + 1, 1⟩ = .ok taken ↔
            ∃ left, consumeContainerSlot container = .ok left ∧
              taken = ⟨left :: stack, nodes + 1, 1⟩ := by
          intro taken
          simp only [takeSlot]
          cases consumeContainerSlot container with
          | error message => exact iff_of_false (fun h => nomatch h) (by simp)
          | ok left =>
            simp only [ok.injEq, exists_eq_left']
            exact ⟨fun h => (ok.inj h).symm, fun h => h ▸ rfl⟩
        cases child with
        | none =>
          rw [closes_leaf hwaiting hchild hstop]
          constructor
          · rintro ⟨next, hstep, hpasses⟩
            obtain ⟨hbignum, hroom, taken, _, htaken, hopened, _, rfl⟩ := (step_ok hstop).1 hstep
            rw [hchild] at hopened
            cases hopened
            obtain ⟨left, hleft, rfl⟩ := (htake taken).1 htaken
            have hroom' : nodes + 1 ≤ maxNodes := hroom
            obtain ⟨hcloses, hcount⟩ := (ih (waiting_collapse _) hroom').1 hpasses
            exact ⟨⟨hbignum, left, hleft, closes_collapse.1 hcloses⟩, by omega⟩
          · rintro ⟨⟨hbignum, left, hleft, hcloses⟩, hcount⟩
            have hroom : nodes + 1 ≤ maxNodes := by omega
            refine ⟨_, (step_ok hstop).2 ⟨hbignum, hroom, _, none,
              (htake _).2 ⟨left, hleft, rfl⟩, hchild, by simp, rfl⟩, ?_⟩
            exact (ih (waiting_collapse _) hroom).2 ⟨closes_collapse.2 hcloses, by omega⟩
        | some child =>
          have hsmall := (stop_of_opened_leaf hchild).1
          rw [closes_open hwaiting hchild]
          constructor
          · rintro ⟨next, hstep, hpasses⟩
            obtain ⟨hbignum, hroom, taken, _, htaken, hopened, hdepth, rfl⟩ :=
              (step_ok hstop).1 hstep
            rw [hchild] at hopened
            cases hopened
            obtain ⟨left, hleft, rfl⟩ := (htake taken).1 htaken
            have hroom' : nodes + 1 ≤ maxNodes := hroom
            obtain ⟨hcloses, hcount⟩ := (ih (waiting_collapse _) hroom').1 hpasses
            have hplain : container.bignum = false := by
              by_contra htag
              have hcontent := hbignum (by simpa using htag)
              simp [hsmall] at hcontent
            exact ⟨⟨hplain, left, hleft, hdepth child rfl, closes_collapse.1 hcloses⟩, by omega⟩
          · rintro ⟨⟨hplain, left, hleft, hdepth, hcloses⟩, hcount⟩
            have hroom : nodes + 1 ≤ maxNodes := by omega
            refine ⟨_, (step_ok hstop).2 ⟨?_, hroom, _, some child,
              (htake _).2 ⟨left, hleft, rfl⟩, hchild, ?_, rfl⟩, ?_⟩
            · simp [hplain]
            · rintro _ ⟨⟩
              exact hdepth
            · exact (ih (waiting_collapse _) hroom).2 ⟨closes_collapse.2 hcloses, by omega⟩

variable {child : Option ContainerBudget}

/-- The first token takes the slot of the root. -/
theorem passes_root (hstop : token ≠ .stop) (hchild : opened token = .ok child) :
    Passes maxDepth maxNodes ⟨[], 0, 0⟩ (token :: tokens) ↔
      (child.isSome → 1 ≤ maxDepth) ∧ Closes maxDepth child.toList tokens ∧
        nodeCount tokens + 1 ≤ maxNodes := by
  rw [passes_cons]
  constructor
  · rintro ⟨next, hstep, hpasses⟩
    obtain ⟨_, hroom, taken, _, htaken, hopened, hdepth, rfl⟩ := (step_ok hstop).1 hstep
    obtain rfl := ok.inj (hopened.symm.trans hchild)
    obtain rfl : ⟨[], 1, 1⟩ = taken := ok.inj htaken
    have hroom' : 1 ≤ maxNodes := hroom
    obtain ⟨hcloses, hcount⟩ := (passes_iff tokens (waiting_collapse _) hroom').1 hpasses
    rw [closes_collapse, append_nil] at hcloses
    refine ⟨fun hsome => ?_, hcloses, by omega⟩
    obtain ⟨opens, rfl⟩ := isSome_iff_exists.1 hsome
    simpa using hdepth opens rfl
  · rintro ⟨hdepth, hcloses, hcount⟩
    have hroom : 1 ≤ maxNodes := by omega
    refine ⟨_, (step_ok hstop).2 ⟨by simp, hroom, ⟨[], 1, 1⟩, child, rfl, hchild, ?_, rfl⟩, ?_⟩
    · rintro opens ⟨⟩
      simpa using hdepth rfl
    · apply (passes_iff tokens (waiting_collapse _) hroom).2
      rw [closes_collapse, append_nil]
      exact ⟨hcloses, by omega⟩

/-- What closes the container that a single value opens is the rest of that value. -/
theorem closes_root (hstop : token ≠ .stop) (hchild : opened token = .ok child) :
    (child.isSome → 1 ≤ maxDepth) ∧ Closes maxDepth child.toList tokens ↔
      Items anyEntries maxDepth 1 (token :: tokens) := by
  have hcontent : Items anyEntries maxDepth 1 (token :: tokens) ↔
      Content maxDepth false 1 (token :: tokens) := Iff.rfl
  rw [hcontent]
  cases child with
  | none =>
    rw [content_leaf hchild hstop]
    constructor
    · rintro ⟨_, rfl⟩
      exact ⟨by simp, 0, rfl, content_zero.2 rfl⟩
    · rintro ⟨_, more, hmore, hrest⟩
      obtain rfl : more = 0 := by omega
      exact ⟨by simp, content_zero.1 hrest⟩
  | some child =>
    rw [content_open hchild]
    constructor
    · rintro ⟨hdepth, inner, _, rfl, hinner, rfl⟩
      refine ⟨rfl, 0, inner, [], maxDepth - 1, rfl, ?_, rfl, hinner, content_zero.2 rfl⟩
      have := hdepth rfl
      omega
    · rintro ⟨_, more, inner, rest, deeper, hmore, rfl, rfl, hinner, hrest⟩
      obtain rfl : more = 0 := by omega
      obtain rfl := content_zero.1 hrest
      exact ⟨fun _ => by omega, inner, [], rfl, hinner, rfl⟩

/-- The pass lets through exactly the tokens of one data item, in order, that is neither too
deep nor has too many nodes. A map of indefinite length may end behind a key. -/
theorem preflight_accepts_one_item (maxDepth maxNodes : Nat) (tokens : List Token) :
    preflightCbor maxDepth maxNodes tokens = .ok () ↔
      Items anyEntries maxDepth 1 tokens ∧ nodeCount tokens ≤ maxNodes := by
  change Passes maxDepth maxNodes ⟨[], 0, 0⟩ tokens ↔ _
  cases tokens with
  | nil =>
    rw [passes_nil]
    refine iff_of_false (by simp) ?_
    rintro ⟨hitems, _⟩
    cases hitems
  | cons token tokens =>
    by_cases hstop : token = .stop
    · subst hstop
      refine iff_of_false ?_ ?_
      · rw [passes_cons]
        simp [step]
      · rintro ⟨hitems, _⟩
        cases hitems
    · obtain ⟨child, hchild⟩ := opened_known token
      rw [passes_root hstop hchild, ← closes_root hstop hchild, nodeCount_cons hstop, and_assoc]

/-- A map of indefinite length may end behind a key. -/
theorem odd_map_accepted :
    preflightCbor 32 4096 [.map none, .scalar .uint, .stop] = .ok () ∧
      ¬Items Even 32 1 [.map none, .scalar .uint, .stop] := by
  refine ⟨rfl, ?_⟩
  intro hitems
  have hopen : Items Even 32 1 [.map none, .scalar .uint, .stop] →
      ∃ items content rest, [Token.scalar .uint, .stop] = content ++ .stop :: rest ∧ Even items ∧
        Items Even 31 items content := by
    generalize hmap : [Token.map none, .scalar .uint, .stop] = tokens
    intro h
    cases h with
    | @openMap _ _ items content rest hentries hcontent hrest =>
      exact ⟨items, content, rest, (cons.inj hmap).2, hentries, hcontent⟩
    | _ => cases (cons.inj hmap).1
  obtain ⟨items, content, rest, hcontent, heven, hitems⟩ := hopen hitems
  cases content with
  | nil => cases (cons.inj hcontent).1
  | cons first content =>
    obtain ⟨rfl, hcontent⟩ := cons.inj hcontent
    cases content with
    | nil =>
      cases hitems with
      | scalar _ hnone =>
        cases hnone
        exact absurd heven (by decide)
    | cons second content =>
      have hshort := congrArg length hcontent
      simp at hshort

end

end bbcom.smp_cbor
