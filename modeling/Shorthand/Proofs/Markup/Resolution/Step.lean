import Shorthand.Markup.Resolution

/-!
# One step of resolving snippets

An element either stays and its children are resolved, or it stands for the nodes of its
snippet, which are resolved with one more text pending. Everything about resolving is shown by
these two cases.
-/

namespace Shorthand.Markup

/-- The snippet text of an element with the nodes it stands for, unless the text is being
resolved already or cannot be read. -/
def snippet? (config : Config) (pending : List String) (element : Element) :
    Option (String × List Node) :=
  (snippetText? config.snippets pending element).bind fun text =>
    (nodes (snippetOptions config) text).toOption.map (text, ·)

/-- An element has a snippet if its name is a key whose text is not pending and can be read. -/
theorem snippet?_eq_some {config : Config} {pending : List String} {element : Element}
    {text : String} {written : List Node} :
    snippet? config pending element = some (text, written) ↔
      element.name.bind config.snippets.get? = some text ∧ text ∉ pending ∧
        nodes (snippetOptions config) text = .ok written := by
  simp only [snippet?, snippetText?, Option.bind_eq_bind, Option.bind_eq_some_iff,
    Option.map_eq_some_iff, Prod.mk.injEq]
  constructor
  · rintro ⟨_, ⟨name, named, known, isText, fresh⟩, found, read, rfl, rfl⟩
    split at fresh
    case isTrue => cases fresh
    case isFalse absent =>
      obtain rfl := Option.some.inj fresh
      refine ⟨⟨name, named, isText⟩, by simpa using absent, ?_⟩
      cases outcome : nodes (snippetOptions config) known with
      | error fault => simp [outcome, Except.toOption] at read
      | ok written => simpa [outcome, Except.toOption] using read
  · rintro ⟨⟨name, named, isText⟩, absent, read⟩
    exact ⟨text, ⟨name, named, text, isText, by simp [absent]⟩, written,
      by simp [read, Except.toOption], rfl, rfl⟩

/-- A node without a snippet stays, over its resolved children. -/
theorem resolveNodes_stays {config : Config} {pending : List String} {element : Element}
    (stays : snippet? config pending element = none) (children rest : List Node) :
    resolveNodes config pending (.node element children :: rest) =
      .node element (resolveNodes config pending children) ::
        resolveNodes config pending rest := by
  rw [resolveNodes]
  split
  case h_1 => rfl
  case h_2 text found =>
    split
    case h_1 => rfl
    case h_2 written read => simp [snippet?, found, read, Except.toOption] at stays

/-- A node with a snippet is replaced by its resolved nodes, which inherit from it. -/
theorem resolveNodes_expands {config : Config} {pending : List String} {element : Element}
    {text : String} {written : List Node}
    (found : snippet? config pending element = some (text, written)) (children rest : List Node) :
    resolveNodes config pending (.node element children :: rest) =
      appendDeepest (resolveNodes config pending children)
          ((resolveNodes config (text :: pending) written).map
            (Node.mapElement (inherit config.options.output.reverseAttributes element))) ++
        resolveNodes config pending rest := by
  rw [resolveNodes]
  split
  case h_1 missing => simp [snippet?, missing] at found
  case h_2 text' isText =>
    split
    case h_1 fault read => simp [snippet?, isText, read, Except.toOption] at found
    case h_2 written' read =>
      simp only [snippet?, isText, read, Except.toOption, Option.bind_some, Option.map_some,
        Option.some.injEq, Prod.mk.injEq] at found
      obtain ⟨rfl, rfl⟩ := found
      rfl

/-- Induction along the steps of resolving. -/
theorem resolve_induction (config : Config) {motive : List String → List Node → Prop}
    (nil : ∀ pending, motive pending [])
    (stays : ∀ pending element children rest, snippet? config pending element = none →
      motive pending children → motive pending rest →
      motive pending (.node element children :: rest))
    (expands : ∀ pending element children rest text written,
      snippet? config pending element = some (text, written) →
      motive (text :: pending) written → motive pending children → motive pending rest →
      motive pending (.node element children :: rest))
    (pending : List String) (nodes : List Node) : motive pending nodes := by
  induction pending, nodes using resolveNodes.induct config with
  | case1 pending => exact nil pending
  | case2 pending element children rest missing below behind =>
    exact stays pending element children rest (by simp [snippet?, missing]) below behind
  | case3 pending element children rest text found fault read below behind =>
    exact stays pending element children rest (by simp [snippet?, found, read, Except.toOption])
      below behind
  | case4 pending element children rest text found written read inner below behind =>
    exact expands pending element children rest text written
      (by simp [snippet?, found, read, Except.toOption]) inner below behind

end Shorthand.Markup
