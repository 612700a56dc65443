import Shorthand.Proofs.Markup.Budget

/-!
# The stack of repeats

Unrolling hands the repeats around a statement down to it. `RepeatStack` keeps them in its state
instead: a repeat is pushed in front of its first copy, replaced for each copy and popped behind
the last one, and everything in between reads the stack as it stands. Both unroll statements to
the same nodes. Every statement leaves the stack as it found it, and every repeat on the stack
always has copies left to count from its own, so that counting down stays at or above zero. As
there is always a first copy, every token of a statement is unrolled.
-/

namespace Shorthand.Markup.RepeatStack

/-- How far unrolling has come, with the repeats around it. -/
structure State where
  progress : Progress
  /-- The stack of repeats, nearest first. -/
  repeats : List Iteration
  /-- Every stack that there has been, latest first. -/
  seen : List (List Iteration)
  /-- The tokens that have been unrolled. -/
  unrolled : List Token

namespace State

/-- Nothing has been unrolled, outside of repeats. -/
def start (options : ReadOptions) : State := ⟨.start options.maxRepeat, [], [], []⟩

/-- Change the stack. -/
def put (state : State) (repeats : List Iteration) : State :=
  { state with repeats, seen := repeats :: state.seen }

/-- Enter a repeat. -/
def push (iteration : Iteration) (state : State) : State :=
  state.put (iteration :: state.repeats)

/-- Go on to another copy of the nearest repeat. -/
def replaceTop (iteration : Iteration) (state : State) : State :=
  match state.repeats with
  | [] => state
  | _ :: outer => state.put (iteration :: outer)

/-- Leave the nearest repeat. -/
def pop (state : State) : State := state.put state.repeats.tail

/-- Change the progress. -/
def update (change : Progress → Progress) (state : State) : State :=
  { state with progress := change state.progress }

/-- Unroll some tokens inside of the repeats on the stack. -/
def read {α : Type} (tokens : List Token) (step : List Iteration → Progress → α × Progress)
    (state : State) : α × State :=
  let outcome := step state.repeats state.progress
  (outcome.1, { state with progress := outcome.2, unrolled := tokens ++ state.unrolled })

end State

/-! ### Unrolling with the stack -/

/-- Make a copy of a repeat, fill it with its text and count it. -/
def finishedCopy (options : ReadOptions) (copy : Iteration → State → List Node × State)
    (iteration : Iteration) (state : State) : List Node × State :=
  let (nodes, state) := copy iteration state
  let (nodes, state) := state.read [] fun _ => fillCopy options iteration nodes
  (nodes, state.update Progress.spend)

/-- Make the copies that are left, each with its own repeat on top of the stack. -/
def copiesFrom (options : ReadOptions) (iteration : Iteration)
    (copy : Iteration → State → List Node × State) : Nat → State → List Node × State
  | 0, state => ([], state)
  | remaining + 1, state =>
    let current := { iteration with index := iteration.count - (remaining + 1) }
    let (nodes, state) := finishedCopy options copy current (state.replaceTop current)
    if state.progress.isSpent then
      (nodes, state)
    else
      let (others, state) := copiesFrom options iteration copy remaining state
      (nodes ++ others, state)

/-- Make all copies that a repeat asks for, or the single one without a repeat. -/
def copies (options : ReadOptions) (repetition : Option Repeat)
    (copy : Option Iteration → State → List Node × State) (state : State) :
    List Node × State :=
  match repetition with
  | none => copy none state
  | some repetition =>
    let count := copyCount options repetition
    let iteration : Iteration := ⟨count, 0, repetition.isImplicit⟩
    let (nodes, state) :=
      copiesFrom options iteration (fun current => copy (some current)) count
        (state.push iteration)
    let state := state.pop
    (nodes, if repetition.isImplicit then state.update Progress.insert else state)

/-- One copy of an element, given how its children are unrolled. Its name and its text are read
before them, its attributes behind them. -/
def elementCopy (options : ReadOptions) (head : Head) (iteration : Option Iteration)
    (children : State → List Node × State) (state : State) : List Node × State :=
  let (texts, state) := state.read (head.name.getD [] ++ head.value.getD []) fun repeats =>
    headTexts options repeats head
  let (below, state) := children state
  let written := head.attributes.getD []
  let (attributes, state) := state.read (written.flatMap AttributeTokens.tokens) fun repeats =>
    attributesOfTokens options repeats written
  (Element.over ⟨texts.1, texts.2, attributes, iteration, head.isSelfClosing⟩ below, state)

mutual

/-- Unroll a statement inside the repeats on the stack. -/
def unroll (options : ReadOptions) : Statement → State → List Node × State
  | .element head children, state =>
    copies options head.repetition
      (fun iteration => elementCopy options head iteration (unrollAll options children)) state
  | .group members repetition, state =>
    copies options repetition
      (fun iteration state =>
        let (nodes, state) := unrollAll options members state
        (markIteration iteration nodes, state))
      state

/-- Unroll statements from first to last. -/
def unrollAll (options : ReadOptions) : List Statement → State → List Node × State
  | [], state => ([], state)
  | statement :: rest, state =>
    let (nodes, state) := unroll options statement state
    let (others, state) := unrollAll options rest state
    (nodes ++ others, state)

end

/-! ### What a step does to the stack -/

/-- Every repeat of a stack counts one of the copies that it makes. -/
def InRange (repeats : List Iteration) : Prop :=
  ∀ iteration ∈ repeats, iteration.index < iteration.count

/-- A copy in range on a stack in range leaves it in range. -/
theorem inRange_cons {iteration : Iteration} {outer : List Iteration}
    (counted : iteration.index < iteration.count) (inRange : InRange outer) :
    InRange (iteration :: outer) :=
  List.forall_mem_cons.mpr ⟨counted, inRange⟩

/-- What a step comes to from a state: the expected value and progress, the given stack, and on
the way no stack with a repeat out of range. -/
structure Reaches {α : Type} (state : State) (outcome : α × State) (expected : α × Progress)
    (repeats : List Iteration) : Prop where
  value : outcome.1 = expected.1
  progress : outcome.2.progress = expected.2
  repeats : outcome.2.repeats = repeats
  seen : ∀ passed ∈ outcome.2.seen, passed ∈ state.seen ∨ InRange passed

/-- A step with the stack in its state does what another one does that is told the repeats, and
leaves the stack as it found it. -/
def Restores {α : Type} (run : State → α × State)
    (step : List Iteration → Progress → α × Progress) : Prop :=
  ∀ state, InRange state.repeats →
    Reaches state (run state) (step state.repeats state.progress) state.repeats

/-- What stands behind a step comes to the same from the state in front of it. -/
theorem Reaches.behind {α β : Type} {state : State} {middle : α × State}
    {between : α × Progress} {outcome : β × State} {expected : β × Progress}
    {around repeats : List Iteration} (first : Reaches state middle between around)
    (second : Reaches middle.2 outcome expected repeats) :
    Reaches state outcome expected repeats where
  value := second.value
  progress := second.progress
  repeats := second.repeats
  seen := fun passed member => (second.seen passed member).elim (first.seen passed) .inr

/-- From a changed stack in range, a step comes to what it comes to from the state with it. -/
theorem Reaches.put {α : Type} {state : State} {outcome : α × State} {expected : α × Progress}
    {repeats before : List Iteration} (inRange : InRange before)
    (reaches : Reaches (state.put before) outcome expected repeats) :
    Reaches state outcome expected repeats where
  value := reaches.value
  progress := reaches.progress
  repeats := reaches.repeats
  seen := by
    intro passed member
    obtain isSeen | passedInRange := reaches.seen passed member
    · obtain rfl | isSeen := List.mem_cons.mp isSeen
      · exact .inr inRange
      · exact .inl isSeen
    · exact .inr passedInRange

/-- Behind the last copy of a repeat the stack is left without it. -/
theorem Reaches.pop {α : Type} {state : State} {outcome : α × State} {expected : α × Progress}
    {last : Iteration} {outer : List Iteration} (inRange : InRange outer)
    (reaches : Reaches state outcome expected (last :: outer)) :
    Reaches state (outcome.1, outcome.2.pop) expected outer where
  value := reaches.value
  progress := reaches.progress
  repeats := congrArg List.tail reaches.repeats
  seen := by
    intro passed member
    obtain rfl | isSeen := List.mem_cons.mp member
    · rw [reaches.repeats]
      exact .inr inRange
    · exact reaches.seen passed isSeen

namespace Restores

variable {α β : Type}

/-- What only reads the stack leaves it alone. -/
theorem read (tokens : List Token) (step : List Iteration → Progress → α × Progress) :
    Restores (State.read tokens step) step :=
  fun _ _ => ⟨rfl, rfl, rfl, fun _ => .inl⟩

/-- A step and the one behind it, which depends on what the first has found. -/
theorem bind {run : State → α × State} {step : List Iteration → Progress → α × Progress}
    {next : α → State → β × State} {nextStep : α → List Iteration → Progress → β × Progress}
    (first : Restores run step) (second : ∀ value, Restores (next value) (nextStep value)) :
    Restores (fun state => next (run state).1 (run state).2)
      (fun repeats progress =>
        nextStep (step repeats progress).1 repeats (step repeats progress).2) := by
  intro state inRange
  have reached := first state inRange
  have inRangeBehind : InRange (run state).2.repeats := reached.repeats ▸ inRange
  have behind := second (run state).1 (run state).2 inRangeBehind
  rw [reached.repeats, reached.progress] at behind
  dsimp only
  rw [← reached.value]
  exact reached.behind behind

/-- What is found and the progress may be changed without the stack. -/
theorem map {run : State → α × State} {step : List Iteration → Progress → α × Progress}
    (restores : Restores run step) (found : α → β) (change : Progress → Progress) :
    Restores (fun state => (found (run state).1, (run state).2.update change))
      (fun repeats progress =>
        (found (step repeats progress).1, change (step repeats progress).2)) := by
  have changes (value : α) : Restores (fun state => (found value, state.update change))
      (fun _ progress => (found value, change progress)) :=
    fun _ _ => ⟨rfl, rfl, rfl, fun _ => .inl⟩
  exact restores.bind changes

end Restores

/-! ### Copies -/

section Copies

variable (options : ReadOptions)

/-- Filling and counting a copy leave the stack alone. -/
theorem finishedCopy_restores {copy : Iteration → State → List Node × State}
    {step : List Iteration → Iteration → Progress → List Node × Progress} (iteration : Iteration)
    (one : Restores (copy iteration) (fun repeats => step repeats iteration)) :
    Restores (finishedCopy options copy iteration)
      (fun repeats => Markup.finishedCopy options (step repeats) iteration) :=
  (one.bind fun nodes => .read [] fun _ => fillCopy options iteration nodes).map id Progress.spend

/-- A copy is made for the iteration it is in, and the others follow it. -/
theorem copiesFrom_succ (iteration : Iteration) (copy : Iteration → State → List Node × State)
    (remaining : Nat) (state : State) :
    copiesFrom options iteration copy (remaining + 1) state =
      let current := { iteration with index := iteration.count - (remaining + 1) }
      let next := finishedCopy options copy current (state.replaceTop current)
      let others := copiesFrom options iteration copy remaining next.2
      if next.2.progress.isSpent then next else (next.1 ++ others.1, others.2) := rfl

/-- The copies that are left put their repeats on top of the stack and leave the last of them
there. -/
theorem copiesFrom_reaches {copy : Iteration → State → List Node × State}
    {step : List Iteration → Iteration → Progress → List Node × Progress}
    (one : ∀ iteration, Restores (copy iteration) (fun repeats => step repeats iteration))
    {outer : List Iteration} (inRange : InRange outer) (iteration : Iteration) {remaining : Nat}
    (left : remaining ≤ iteration.count) {state : State} {top : Iteration}
    (around : state.repeats = top :: outer) :
    ∃ last, Reaches state (copiesFrom options iteration copy remaining state)
      (Markup.copiesFrom options iteration (fun current => step (current :: outer) current)
        remaining state.progress) (last :: outer) := by
  induction remaining generalizing state top with
  | zero => exact ⟨top, rfl, rfl, around, fun _ => .inl⟩
  | succ remaining ih =>
    -- Each copy replaces the top of the stack, so only what stands below it is kept.
    let current : Iteration := { iteration with index := iteration.count - (remaining + 1) }
    have counted : current.index < current.count :=
      Nat.sub_lt (Nat.lt_of_lt_of_le (Nat.succ_pos _) left) (Nat.succ_pos _)
    have currentInRange := inRange_cons counted inRange
    have replaced : state.replaceTop current = state.put (current :: outer) := by
      rw [State.replaceTop, around]
    have next : Reaches state (finishedCopy options copy current (state.replaceTop current))
        (Markup.finishedCopy options (step (current :: outer)) current state.progress)
        (current :: outer) := by
      rw [replaced]
      exact .put currentInRange
        (finishedCopy_restores options current (one current) (state.put _) currentInRange)
    have same : Markup.finishedCopy options (fun current => step (current :: outer) current) current
        state.progress = Markup.finishedCopy options (step (current :: outer)) current
          state.progress := rfl
    rw [copiesFrom_succ, Markup.copiesFrom_succ]
    dsimp only
    rw [same]
    generalize finishedCopy options copy current _ = made at next ⊢
    generalize Markup.finishedCopy options _ current _ = expected at next ⊢
    obtain ⟨last, others⟩ := ih (Nat.le_of_succ_le left) next.repeats
    rw [← next.progress]
    split
    case isTrue spent => exact ⟨current, next⟩
    case isFalse unspent =>
      have both := next.behind others
      exact ⟨last, by simp only [next.value, both.value], both.progress, both.repeats, both.seen⟩

/-- A repeat puts itself on the stack for its copies and takes itself off behind them. -/
theorem copies_restores (repetition : Option Repeat)
    {copy : Option Iteration → State → List Node × State}
    {step : List Iteration → Option Iteration → Progress → List Node × Progress}
    (one : ∀ iteration, Restores (copy iteration) (fun repeats => step repeats iteration)) :
    Restores (copies options repetition copy)
      (fun repeats => Markup.copies options repeats repetition step) := by
  cases repetition with
  | none => exact one none
  | some repetition =>
    intro state inRange
    obtain ⟨count, isImplicit⟩ := repetition
    let iteration : Iteration := ⟨copyCount options ⟨count, isImplicit⟩, 0, isImplicit⟩
    have entered : (state.push iteration).repeats = iteration :: state.repeats := rfl
    obtain ⟨last, copied⟩ := copiesFrom_reaches options (fun current => one (some current)) inRange
      iteration (Nat.le_refl iteration.count) entered
    have left := (copied.put (inRange_cons (copyCount_pos options _) inRange)).pop inRange
    cases isImplicit with
    | false => exact left
    | true => exact ⟨left.value, congrArg Progress.insert left.progress, left.repeats, left.seen⟩

end Copies

/-! ### Statements -/

/-- Reading the name, the text and the attributes of an element leaves the stack alone. -/
theorem elementCopy_restores (options : ReadOptions) (head : Head) (iteration : Option Iteration)
    {children : State → List Node × State}
    {below : List Iteration → Progress → List Node × Progress}
    (restores : Restores children below) :
    Restores (elementCopy options head iteration children)
      (fun repeats => Markup.elementCopy options head repeats iteration (below repeats)) := by
  have whole := (Restores.read (head.name.getD [] ++ head.value.getD []) fun repeats =>
    headTexts options repeats head).bind fun texts => restores.bind fun nodes =>
      (Restores.read ((head.attributes.getD []).flatMap AttributeTokens.tokens) fun repeats =>
        attributesOfTokens options repeats (head.attributes.getD [])).map
          (fun attributes => Element.over
            ⟨texts.1, texts.2, attributes, iteration, head.isSelfClosing⟩ nodes) id
  intro state inRange
  dsimp only
  rw [elementCopy_eq]
  exact whole state inRange

mutual

/-- A statement is unrolled inside the repeats on the stack, which it leaves as it found it. -/
theorem unroll_restores (options : ReadOptions) (statement : Statement) :
    Restores (unroll options statement)
      (fun repeats => Markup.unroll options repeats statement) := by
  cases statement with
  | element head children =>
    exact copies_restores options head.repetition fun iteration =>
      elementCopy_restores options head iteration (unrollAll_restores options children)
  | group members repetition =>
    exact copies_restores options repetition fun iteration =>
      (unrollAll_restores options members).map (markIteration iteration) id

/-- Statements are unrolled inside the repeats on the stack, which they leave as they found
it. -/
theorem unrollAll_restores (options : ReadOptions) (statements : List Statement) :
    Restores (unrollAll options statements)
      (fun repeats => Markup.unrollAll options repeats statements) := by
  cases statements with
  | nil => exact .read [] fun _ progress => ([], progress)
  | cons statement rest =>
    exact (unroll_restores options statement).bind fun nodes =>
      (unrollAll_restores options rest).map (nodes ++ ·) id

end

/-- From the start, unrolling never meets a stack with a repeat out of range. -/
theorem unrollAll_start (options : ReadOptions) (statements : List Statement) :
    let run := unrollAll options statements (.start options)
    (run.1, run.2.progress) =
        Markup.unrollAll options [] statements (.start options.maxRepeat) ∧
      run.2.repeats = [] ∧ ∀ passed ∈ run.2.seen, InRange passed := by
  obtain ⟨value, progress, repeats, seen⟩ :=
    unrollAll_restores options statements (.start options) (List.forall_mem_nil _)
  exact ⟨Prod.ext value progress, repeats,
    fun passed member => (seen passed member).resolve_left List.not_mem_nil⟩

/-! ### Unrolled tokens -/

/-- A run unrolls some tokens and no others. -/
def Writes {α : Type} (run : State → α × State) (tokens : List Token) : Prop :=
  ∀ state token, token ∈ (run state).2.unrolled ↔ token ∈ tokens ∨ token ∈ state.unrolled

namespace Writes

variable {α β : Type}

/-- A step that reads tokens writes their numbers. -/
theorem read (tokens : List Token) (step : List Iteration → Progress → α × Progress) :
    Writes (State.read tokens step) tokens :=
  fun _ _ => List.mem_append

/-- A run and the one behind it unroll the tokens of both. -/
theorem bind {run : State → α × State} {next : α → State → β × State} {first second : List Token}
    (writes : Writes run first) (behind : ∀ value, Writes (next value) second) :
    Writes (fun state => next (run state).1 (run state).2) (first ++ second) := by
  intro state token
  rw [behind, writes, List.mem_append, or_left_comm, or_assoc]

/-- What is found and the progress may be changed without unrolling. -/
theorem map {run : State → α × State} {tokens : List Token} (writes : Writes run tokens)
    (found : α → β) (change : Progress → Progress) :
    Writes (fun state => (found (run state).1, (run state).2.update change)) tokens :=
  writes

end Writes

section Tokens

variable (options : ReadOptions) {tokens : List Token}

/-- A finished copy writes what is written inside of it. -/
theorem finishedCopy_writes {copy : Iteration → State → List Node × State} (iteration : Iteration)
    (one : Writes (copy iteration) tokens) :
    Writes (finishedCopy options copy iteration) tokens := by
  have filled := one.bind fun nodes => .read [] fun _ => fillCopy options iteration nodes
  rw [List.append_nil] at filled
  exact filled.map id Progress.spend

/-- Another iteration on top of the stack changes nothing that has been unrolled. -/
theorem replaceTop_unrolled (iteration : Iteration) (state : State) :
    (state.replaceTop iteration).unrolled = state.unrolled := by
  rw [State.replaceTop]
  split <;> rfl

/-- Each of the copies that are left unrolls the same tokens. -/
theorem copiesFrom_writes {copy : Iteration → State → List Node × State}
    (one : ∀ iteration, Writes (copy iteration) tokens) (iteration : Iteration) (remaining : Nat)
    (state : State) (token : Token) :
    token ∈ (copiesFrom options iteration copy remaining state).2.unrolled ↔
      0 < remaining ∧ token ∈ tokens ∨ token ∈ state.unrolled := by
  induction remaining generalizing state with
  | zero => simp [copiesFrom]
  | succ remaining ih =>
    let current : Iteration := { iteration with index := iteration.count - (remaining + 1) }
    have next := finishedCopy_writes options current (one current) (state.replaceTop current) token
    rw [replaceTop_unrolled] at next
    rw [copiesFrom_succ]
    dsimp only
    split
    case isTrue spent => simpa using next
    case isFalse unspent =>
      rw [ih, next, ← or_assoc, or_iff_right_of_imp And.right]
      simp

/-- A repeat makes at least one copy. -/
theorem copies_writes (repetition : Option Repeat)
    {copy : Option Iteration → State → List Node × State}
    (one : ∀ iteration, Writes (copy iteration) tokens) :
    Writes (copies options repetition copy) tokens := by
  cases repetition with
  | none => exact one none
  | some repetition =>
    intro state token
    have made := copiesFrom_writes options (fun iteration => one (some iteration))
      ⟨copyCount options repetition, 0, repetition.isImplicit⟩ (copyCount options repetition)
      (state.push ⟨copyCount options repetition, 0, repetition.isImplicit⟩) token
    rw [and_iff_right (copyCount_pos options repetition)] at made
    refine Iff.trans ?_ made
    rw [copies]
    dsimp only
    split <;> rfl

/-- An element unrolls its own tokens and those of its children. -/
theorem elementCopy_writes (head : Head) (iteration : Option Iteration)
    {children : State → List Node × State} (writes : Writes children tokens) :
    Writes (elementCopy options head iteration children) (head.tokens ++ tokens) := by
  have whole := (Writes.read (head.name.getD [] ++ head.value.getD []) fun repeats =>
    headTexts options repeats head).bind fun texts => writes.bind fun nodes =>
      (Writes.read ((head.attributes.getD []).flatMap AttributeTokens.tokens) fun repeats =>
        attributesOfTokens options repeats (head.attributes.getD [])).map
          (fun attributes => Element.over
            ⟨texts.1, texts.2, attributes, iteration, head.isSelfClosing⟩ nodes) id
  intro state token
  refine (whole state token).trans ?_
  simp only [Head.tokens, List.mem_append, or_assoc, or_comm, or_left_comm]

end Tokens

mutual

/-- A statement unrolls the tokens of its elements. -/
theorem unroll_writes (options : ReadOptions) (statement : Statement) :
    Writes (unroll options statement) (statement.heads.flatMap Head.tokens) := by
  cases statement with
  | element head children =>
    exact copies_writes options head.repetition fun iteration =>
      elementCopy_writes options head iteration (unrollAll_writes options children)
  | group members repetition =>
    exact copies_writes options repetition fun iteration =>
      (unrollAll_writes options members).map (markIteration iteration) id

/-- Statements unroll the tokens of their elements. -/
theorem unrollAll_writes (options : ReadOptions) (statements : List Statement) :
    Writes (unrollAll options statements) ((headsAll statements).flatMap Head.tokens) := by
  cases statements with
  | nil => exact fun _ _ => (or_iff_right List.not_mem_nil).symm
  | cons statement rest =>
    rw [headsAll, List.flatMap_append]
    exact (unroll_writes options statement).bind fun nodes =>
      (unrollAll_writes options rest).map (nodes ++ ·) id

end

/-- Statements have a number that is too wide exactly if one is unrolled. -/
theorem hasWideNumber_iff_unrolled (options : ReadOptions) (statements : List Statement) :
    hasWideNumber statements ↔ ∃ token ∈ (unrollAll options statements (.start options)).2.unrolled,
      token.kind.isTooWide := by
  have unrolled (token : Token) :=
    (unrollAll_writes options statements (.start options) token).trans
      (or_iff_left List.not_mem_nil)
  simp only [unrolled, hasWideNumber, List.any_eq_true, List.mem_flatMap]
  constructor
  · exact fun ⟨head, isHead, token, isOwn, wide⟩ => ⟨token, ⟨head, isHead, isOwn⟩, wide⟩
  · exact fun ⟨token, ⟨head, isHead, isOwn⟩, wide⟩ => ⟨head, isHead, token, isOwn, wide⟩

end Shorthand.Markup.RepeatStack
