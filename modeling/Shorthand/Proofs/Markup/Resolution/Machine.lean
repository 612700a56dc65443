import Mathlib.Data.List.Dedup
import Mathlib.Data.List.Perm.Subperm
import Mathlib.Logic.Relation
import Shorthand.Proofs.Markup.Resolution.Step

/-!
# Resolving with a stack of texts

Resolving as a machine with two stacks: the texts that are being resolved, and what is left to
do around the nodes in work. Nothing that the machine does is bounded in advance, as a snippet
brings new nodes to resolve. It comes to an end because a text is never pushed a second time:
the pushed texts are different texts of the table. The main statement is `resolution_ends`.
-/

namespace Shorthand.Markup

/-- Why nodes are being resolved. -/
inductive Errand where
  /-- They are the children of an element that stays. -/
  | below (element : Element)
  /-- They are the nodes of a snippet text, to which an element with children refers. -/
  | inside (text : String) (caller : Element) (children : List Node)
  /-- They go below the nodes that their parent became. -/
  | graft (expanded : List Node)

/-- What is left to do when some nodes are resolved: the errand, with the nodes that are done
before its element and those that follow it. -/
structure Frame where
  errand : Errand
  before : List Node
  rest : List Node

/-- The snippet text that a frame is inside of. -/
def Frame.text? (frame : Frame) : Option String :=
  match frame.errand with
  | .inside text _ _ => some text
  | _ => none

/-- A state of the machine: the texts being resolved and what is left to do, nearest first, the
nodes in work and the nodes that became of those before them. -/
structure Resolver where
  pending : List String
  frames : List Frame
  todo : List Node
  done : List Node

namespace Resolver

/-- Nothing has been resolved. -/
def start (nodes : List Node) : Resolver := ⟨[], [], nodes, []⟩

/-- How many snippets are being expanded inside of each other. -/
def nesting (state : Resolver) : Nat := (state.frames.filterMap Frame.text?).length

/-- One step. A snippet text is pushed when its nodes are taken up and popped when they are
resolved. -/
def step (config : Config) : Resolver → Option Resolver
  | ⟨pending, frames, .node element children :: rest, done⟩ =>
    match snippet? config pending element with
    | none => some ⟨pending, ⟨.below element, done, rest⟩ :: frames, children, []⟩
    | some (text, written) =>
      some ⟨text :: pending, ⟨.inside text element children, done, rest⟩ :: frames, written, []⟩
  | ⟨pending, ⟨errand, before, rest⟩ :: frames, [], done⟩ =>
    match errand with
    | .below element => some ⟨pending, frames, rest, before ++ [.node element done]⟩
    | .inside _ caller children =>
      let expanded :=
        done.map (Node.mapElement (inherit config.options.output.reverseAttributes caller))
      some ⟨pending.tail, ⟨.graft expanded, before, rest⟩ :: frames, children, []⟩
    | .graft expanded => some ⟨pending, frames, rest, before ++ appendDeepest done expanded⟩
  | ⟨_, [], [], _⟩ => none

/-- Some steps lead from one state to another. -/
abbrev Reaches (config : Config) : Resolver → Resolver → Prop :=
  Relation.ReflTransGen fun before after => step config before = some after

variable {config : Config}

/-! ### Every run ends -/

/-- Nodes are resolved in finitely many steps, which leave both stacks as they found them. -/
theorem reaches_resolved (pending : List String) (todo : List Node) (frames : List Frame)
    (done : List Node) :
    Reaches config ⟨pending, frames, todo, done⟩
      ⟨pending, frames, [], done ++ resolveNodes config pending todo⟩ := by
  induction pending, todo using resolve_induction config generalizing frames done with
  | nil pending =>
    rw [resolveNodes, List.append_nil]
  | stays pending element children rest stays below behind =>
    have enter : step config ⟨pending, frames, .node element children :: rest, done⟩ =
        some ⟨pending, ⟨.below element, done, rest⟩ :: frames, children, []⟩ := by
      simp only [step, stays]
    rw [resolveNodes_stays stays, List.append_cons]
    exact .head enter ((below _ []).trans (.head rfl (behind frames _)))
  | expands pending element children rest text written found inside below behind =>
    have enter : step config ⟨pending, frames, .node element children :: rest, done⟩ =
        some ⟨text :: pending,
          ⟨.inside text element children, done, rest⟩ :: frames, written, []⟩ := by
      simp only [step, found]
    rw [resolveNodes_expands found, ← List.append_assoc]
    exact .head enter
      ((inside _ []).trans (.head rfl ((below _ []).trans (.head rfl (behind frames _)))))

/-- A state that leads to a last one begins no endless run, as every state has at most one
successor. -/
theorem acc_of_reaches {state last : Resolver} (reaches : Reaches config state last)
    (isLast : step config last = none) :
    Acc (fun after before => step config before = some after) state := by
  induction reaches using Relation.ReflTransGen.head_induction_on with
  | refl =>
    exact .intro _ fun after follows => by
      rw [isLast] at follows
      cases follows
  | head follows _ ih =>
    exact .intro _ fun after follows' => by
      rw [follows] at follows'
      cases follows'
      exact ih

/-! ### What the stack holds -/

/-- The stack holds the texts of the snippets that are being expanded, which are different
texts of the table. -/
structure Sound (config : Config) (state : Resolver) : Prop where
  opened : state.pending = state.frames.filterMap Frame.text?
  distinct : state.pending.Nodup
  known : ∀ text ∈ state.pending, text ∈ config.snippets.entries.map Prod.snd

/-- A resolver is sound where it starts. -/
theorem Sound.start (nodes : List Node) : Sound config (start nodes) :=
  ⟨rfl, List.nodup_nil, by simp [Resolver.start]⟩

/-- A step pushes only a text of the table that is not on the stack. -/
theorem Sound.step {state next : Resolver} (sound : Sound config state)
    (follows : step config state = some next) : Sound config next := by
  obtain ⟨pending, frames, todo, done⟩ := state
  obtain ⟨opened, distinct, known⟩ := sound
  simp only at opened distinct known
  cases todo with
  | cons first rest =>
    obtain ⟨element, children⟩ := first
    simp only [Resolver.step] at follows
    split at follows
    case h_1 =>
      obtain rfl := Option.some.inj follows
      exact ⟨opened, distinct, known⟩
    case h_2 text written found =>
      obtain rfl := Option.some.inj follows
      -- The text that is opened was not pending, and it stands in the table.
      obtain ⟨isText, fresh, -⟩ := snippet?_eq_some.mp found
      obtain ⟨name, -, inTable⟩ := Option.bind_eq_some_iff.mp isText
      refine ⟨by simp [opened, Frame.text?], List.nodup_cons.mpr ⟨fresh, distinct⟩, ?_⟩
      obtain ⟨entry, mem, same⟩ := mem_of_lookup inTable
      exact List.forall_mem_cons.mpr ⟨List.mem_map.mpr ⟨entry, mem, same⟩, known⟩
  | nil =>
    cases frames with
    | nil => cases follows
    | cons frame frames =>
      obtain ⟨errand, before, rest⟩ := frame
      cases errand with
      | below element =>
        obtain rfl := Option.some.inj follows
        exact ⟨opened, distinct, known⟩
      | inside text caller children =>
        obtain rfl := Option.some.inj follows
        -- The innermost pending text is the one of the frame that is left.
        simp only [Frame.text?, List.filterMap_cons] at opened
        subst opened
        exact ⟨rfl, (List.nodup_cons.mp distinct).2, (List.forall_mem_cons.mp known).2⟩
      | graft expanded =>
        obtain rfl := Option.some.inj follows
        exact ⟨opened, distinct, known⟩

/-- A sound resolver stays sound along its run. -/
theorem Sound.reaches {state last : Resolver} (sound : Sound config state)
    (reaches : Reaches config state last) : Sound config last := by
  induction reaches with
  | refl => exact sound
  | tail _ follows ih => exact ih.step follows

/-- Expansions are nested at most as deep as there are different texts. -/
theorem Sound.nesting_le {state : Resolver} (sound : Sound config state) :
    state.nesting ≤ (config.snippets.entries.map Prod.snd).dedup.length := by
  have subset : state.pending ⊆ (config.snippets.entries.map Prod.snd).dedup :=
    fun text mem => List.mem_dedup.mpr (sound.known text mem)
  rw [nesting, ← sound.opened]
  exact (sound.distinct.subperm subset).length_le

/-- Resolving ends for every table. No run from the beginning is endless, and the last state
holds the resolved nodes and empty stacks. In every state on the way the stack holds the texts
of the snippets that are being expanded; they are different texts of the table, so expansions
are nested at most as deep as there are different texts. Whatever nodes are resolved, the stack
is left as it was found. -/
theorem resolution_ends (config : Config) (nodes : List Node) :
    Acc (fun after before => Resolver.step config before = some after) (.start nodes) ∧
      Reaches config (.start nodes) ⟨[], [], [], resolveSnippets config nodes⟩ ∧
      Resolver.step config ⟨[], [], [], resolveSnippets config nodes⟩ = none ∧
      (∀ state, Reaches config (.start nodes) state →
        state.pending = state.frames.filterMap Frame.text? ∧ state.pending.Nodup ∧
        (∀ text ∈ state.pending, text ∈ config.snippets.entries.map Prod.snd) ∧
        state.nesting ≤ (config.snippets.entries.map Prod.snd).dedup.length) ∧
      (∀ pending frames todo done, Reaches config ⟨pending, frames, todo, done⟩
        ⟨pending, frames, [], done ++ resolveNodes config pending todo⟩) := by
  have ends : Reaches config (.start nodes) ⟨[], [], [], resolveSnippets config nodes⟩ :=
    reaches_resolved [] nodes [] []
  refine ⟨acc_of_reaches ends rfl, ends, rfl, fun state reaches => ?_,
    fun pending frames todo done => reaches_resolved pending todo frames done⟩
  have sound := (Sound.start nodes).reaches reaches
  exact ⟨sound.opened, sound.distinct, sound.known, sound.nesting_le⟩

end Resolver

end Shorthand.Markup
