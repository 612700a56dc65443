import Shorthand.Config

/-!
# Resolving snippets in markup

A node whose name is the key of a snippet is replaced by the nodes of that snippet. It gives
its attributes, text, repeat and closing mark to each of them, and its children go below the
deepest of them. A snippet inside itself stays as it is, which also bounds how deep snippets
are resolved inside of snippets.
-/

namespace Shorthand.Markup

/-- What reading the text of a snippet depends on. -/
def snippetOptions (config : Config) : ReadOptions := { config.readOptions with text := none }

/-- The entries whose texts are not being resolved. -/
def unresolved (snippets : Table) (pending : List String) : List (String × String) :=
  snippets.entries.filter fun entry => !pending.contains entry.2

/-- The snippet text of an element, unless it is being resolved already. -/
def snippetText? (snippets : Table) (pending : List String) (element : Element) :
    Option String := do
  let text ← snippets.get? (← element.name)
  if pending.contains text then none else some text

/-- What is looked up in a list is one of its entries. -/
theorem mem_of_lookup {key text : String} {entries : List (String × String)}
    (found : entries.lookup key = some text) : ∃ entry ∈ entries, entry.2 = text := by
  obtain ⟨before, behind, whole, _⟩ := List.lookup_eq_some_iff.mp found
  exact ⟨(key, text), by simp [whole], rfl⟩

/-- A text that becomes pending is no longer among the unresolved ones. -/
theorem unresolved_cons_length {snippets : Table} {pending : List String} {element : Element}
    {text : String} (found : snippetText? snippets pending element = some text) :
    (unresolved snippets (text :: pending)).length < (unresolved snippets pending).length := by
  simp only [snippetText?, Option.bind_eq_bind, Option.bind_eq_some_iff] at found
  obtain ⟨name, _, written, inTable, fresh⟩ := found
  split at fresh
  · cases fresh
  · rename_i absent
    simp only [Option.some.injEq] at fresh
    subst fresh
    obtain ⟨entry, mem, same⟩ := mem_of_lookup inTable
    have sub : unresolved snippets (written :: pending) =
        (unresolved snippets pending).filter fun entry => entry.2 != written := by
      simp only [unresolved, List.filter_filter]
      refine List.filter_congr fun entry _ => ?_
      by_cases pendingEntry : entry.2 ∈ pending <;> by_cases sameText : entry.2 = written <;>
        simp [pendingEntry, sameText]
    rw [sub]
    refine List.length_filter_lt_length_iff_exists.mpr ⟨entry, ?_, by simp [same]⟩
    simp only [unresolved, List.mem_filter]
    exact ⟨mem, by simpa [same] using absent⟩

/-- What a node of a snippet becomes when an element refers to it. -/
def inherit (reversed : Bool) (caller own : Element) : Element :=
  { name := own.name
    value := if caller.value.isEmpty then own.value else caller.value
    attributes :=
      if reversed then caller.attributes ++ own.attributes
      else own.attributes ++ caller.attributes
    iteration := caller.iteration <|> own.iteration
    isSelfClosing := own.isSelfClosing || caller.isSelfClosing }

/-- Put nodes behind the children of the deepest node. -/
def appendDeepest (added nodes : List Node) : List Node :=
  Node.mapLastDeepest (fun element => .node element added) nodes

/-- Resolve the snippets of nodes; `pending` holds the texts being resolved around them. A
text that cannot be read leaves its node as it is. The numbers of a text are padded to any width,
as in `nodes`. -/
def resolveNodes (config : Config) (pending : List String) : List Node → List Node
  | [] => []
  | .node element children :: rest =>
    match _found : snippetText? config.snippets pending element with
    | none =>
      .node element (resolveNodes config pending children) :: resolveNodes config pending rest
    | some text =>
      match nodes (snippetOptions config) text with
      | .error _ =>
        .node element (resolveNodes config pending children) :: resolveNodes config pending rest
      | .ok written =>
        let expanded := (resolveNodes config (text :: pending) written).map
          (Node.mapElement (inherit config.options.output.reverseAttributes element))
        appendDeepest (resolveNodes config pending children) expanded ++
          resolveNodes config pending rest
termination_by nodes => ((unresolved config.snippets pending).length, sizeOf nodes)
decreasing_by
  all_goals try
    apply Prod.Lex.right
    simp only [List.cons.sizeOf_spec, Node.node.sizeOf_spec]
    omega
  exact Prod.Lex.left _ _ (unresolved_cons_length _found)

/-- Resolve all snippets of an abbreviation. -/
def resolveSnippets (config : Config) (nodes : List Node) : List Node :=
  resolveNodes config [] nodes

end Shorthand.Markup
