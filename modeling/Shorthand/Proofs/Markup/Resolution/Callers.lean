import Mathlib.Data.List.Count
import Mathlib.Data.List.Nodup
import Shorthand.Proofs.Markup.Likeness
import Shorthand.Proofs.Markup.Merging
import Shorthand.Proofs.Markup.Resolution.Step

/-!
# Callers and the order of their attributes

An element of an answer was written once, and callers around it gave it their attributes, one
after the other. The option for the order of attributes decides where each caller puts its
own and which one is left when they are merged. Both follow the callers in the same order,
so the outermost one wins in either case. The main statement is `reverseAttributes_reorders`.
-/

namespace Shorthand

/-- The configuration with the order of attributes set. -/
def Config.reversing (config : Config) (reversed : Bool) : Config :=
  { config with
    options :=
      { config.options with
        output := { config.options.output with reverseAttributes := reversed } } }

namespace Markup

/-- No two attributes have one name in any case, except for classes. -/
def Element.HasDistinctKeys (element : Element) : Prop :=
  (element.keys.filter (· ≠ "class")).Nodup

/-- What becomes of an element through its callers, outermost first. -/
def inherited (reversed : Bool) (callers : List Element) (own : Element) : Element :=
  callers.foldr (inherit reversed) own

/-- The nodes that an element refers to: its name is the key of a snippet that can be read. -/
def Refers (config : Config) (caller : Element) (written : List Node) : Prop :=
  ∃ text, caller.name.bind config.snippets.get? = some text ∧
    nodes (snippetOptions config) text = .ok written

instance (element : Element) : Decidable element.HasDistinctKeys :=
  inferInstanceAs (Decidable (List.Nodup _))

/-- The elements that resolving an abbreviation may meet. -/
inductive Met (config : Config) (abbreviation : List Node) : Element → Prop where
  | abbreviation {element : Element} :
    element ∈ Node.elementsAll abbreviation → Met config abbreviation element
  | snippet {caller element : Element} {written : List Node} :
    Met config abbreviation caller → Refers config caller written →
    element ∈ Node.elementsAll written → Met config abbreviation element

/-- Whether some elements include those of the snippets that they refer to. -/
def isClosed (config : Config) (found : List Element) : Bool :=
  found.all fun caller =>
    match caller.name.bind config.snippets.get? with
    | none => true
    | some text =>
      match nodes (snippetOptions config) text with
      | .error _ => true
      | .ok written => (Node.elementsAll written).all found.contains

/-- Elements that include those of an abbreviation and of their snippets are all that is met. -/
theorem Met.mem_of_isClosed {config : Config} {abbreviation : List Node} {found : List Element}
    (closed : isClosed config found)
    (starts : ∀ element ∈ Node.elementsAll abbreviation, element ∈ found) {element : Element}
    (met : Met config abbreviation element) : element ∈ found := by
  induction met with
  | abbreviation mem => exact starts _ mem
  | snippet _ refers mem ih =>
    obtain ⟨text, isText, read⟩ := refers
    have inside := List.all_eq_true.mp closed _ ih
    simp only [isText, read, List.all_eq_true, List.contains_iff_mem] at inside
    exact inside _ mem

/-- An element to which no caller gives anything: one of the abbreviation, or one of a snippet
that is not at the top of it. -/
def Outermost (config : Config) (abbreviation : List Node) (element : Element) : Prop :=
  element ∈ Node.elementsAll abbreviation ∨
    ∃ caller written, Met config abbreviation caller ∧ Refers config caller written ∧
      element ∈ Node.elementsAll (written.flatMap Node.children)

/-- An element with its callers, outermost first, of which the first one is given by `start`.
Each of the others is at the top of what the one before it refers to. -/
inductive Lineage (config : Config) : (start : Element → Prop) → List Element → Element → Prop
    where
  | own {start} {own : Element} : start own → Lineage config start [] own
  | called {start} {caller own : Element} {callers : List Element} {written : List Node} :
    start caller → Refers config caller written →
    Lineage config (· ∈ written.map Node.element) callers own →
    Lineage config start (caller :: callers) own

/-- Two elements that one element became through the same callers, with the attributes of inner
callers first and with those of outer callers first. -/
def Drawn (config : Config) (start : Element → Prop) (left right : Element) : Prop :=
  ∃ callers own, Lineage config start callers own ∧
    left = inherited false callers own ∧ right = inherited true callers own

/-- Two elements that differ at most in the order of their attributes, which are given by the
outermost caller that has them. -/
structure Reordered (config : Config) (abbreviation : List Node) (left right : Element) :
    Prop where
  name : left.name = right.name
  value : left.value = right.value
  iteration : left.iteration = right.iteration
  isSelfClosing : left.isSelfClosing = right.isSelfClosing
  keys : ∀ key, key ∈ left.keys ↔ key ∈ right.keys
  values : ∀ key, key ≠ "class" → left.valuesOf key = right.valuesOf key
  outermost : ∃ callers own, Lineage config (Outermost config abbreviation) callers own ∧
    left = mergeAttributes (config.reversing false) (inherited false callers own) ∧
    right = mergeAttributes (config.reversing true) (inherited true callers own) ∧
    ∀ key, key ≠ "class" → left.valuesOf key =
      ((callers ++ [own]).findSome? fun element => (element.valuesOf key).head?).toList

/-! ### Attributes through callers -/

/-- What an element inherits in either direction has the same attributes in another order. -/
theorem inherited_alike (callers : List Element) (own : Element) :
    let left := inherited false callers own
    let right := inherited true callers own
    left.name = right.name ∧ left.value = right.value ∧ left.iteration = right.iteration ∧
      left.isSelfClosing = right.isSelfClosing := by
  induction callers with
  | nil => simp [inherited]
  | cons caller callers ih =>
    simp only [inherited, List.foldr_cons, inherit] at ih ⊢
    simp [ih]

/-- The attributes stand in the order of the callers, or in the opposite order of them. -/
theorem attributes_inherited (reversed : Bool) (callers : List Element) (own : Element) :
    (inherited reversed callers own).attributes =
      (if reversed then callers ++ [own] else (callers ++ [own]).reverse).flatMap
        Element.attributes := by
  induction callers with
  | nil => cases reversed <;> simp [inherited]
  | cons caller callers ih =>
    rw [inherited, List.foldr_cons, inherit]
    rw [inherited] at ih
    cases reversed <;> simp_all

/-- The values under a key are those of all callers and the own ones, in the order of the
direction. -/
theorem valuesOf_inherited (reversed : Bool) (callers : List Element) (own : Element)
    (key : String) :
    (inherited reversed callers own).valuesOf key =
      (if reversed then callers ++ [own] else (callers ++ [own]).reverse).flatMap
        (Element.valuesOf key) := by
  rw [Element.valuesOf, attributes_inherited, List.filter_flatMap, List.map_flatMap]
  rfl

/-- The keys are those of all callers and the own ones. -/
theorem mem_keys_inherited (reversed : Bool) (callers : List Element) (own : Element)
    (key : String) :
    key ∈ (inherited reversed callers own).keys ↔
      ∃ element ∈ callers ++ [own], key ∈ element.keys := by
  rw [Element.keys, attributes_inherited, List.filterMap_flatMap, List.mem_flatMap]
  cases reversed with
  | false => simp only [Bool.false_eq_true, if_false, List.mem_reverse]; rfl
  | true => rfl

/-- An element with distinct keys has at most one value for a key other than `class`. -/
theorem Element.valuesOf_length_le {element : Element} (distinct : element.HasDistinctKeys)
    {key : String} (plain : key ≠ "class") : (element.valuesOf key).length ≤ 1 := by
  have once := List.nodup_iff_count_le_one.mp distinct key
  rw [List.count_filter (by simp [plain]), keys, List.count_filterMap] at once
  rw [valuesOf, List.length_map, ← List.countP_eq_length_filter]
  refine Nat.le_trans (List.countP_mono_left fun candidate _ hasKey => ?_) once
  simp [Attribute.hasKey_iff.mp hasKey]

/-- The value of a key that is left belongs to the outermost caller that has the key, in either
order of attributes. -/
theorem valuesOf_merge_inherited (config : Config) (reversed : Bool) {callers : List Element}
    {own : Element} (distinct : ∀ element ∈ callers ++ [own], element.HasDistinctKeys)
    {key : String} (plain : key ≠ "class") :
    (mergeAttributes (config.reversing reversed) (inherited reversed callers own)).valuesOf key =
      ((callers ++ [own]).findSome? fun element => (element.valuesOf key).head?).toList := by
  rw [valuesOf_mergeAttributes _ _ plain, valuesOf_inherited]
  congr 1
  cases reversed with
  | true => exact List.head?_flatMap
  | false =>
    have single : (callers ++ [own]).map (fun element => (element.valuesOf key).getLast?) =
        (callers ++ [own]).map fun element => (element.valuesOf key).head? := by
      refine List.map_congr_left fun element mem => ?_
      have short := Element.valuesOf_length_le (distinct element mem) plain
      match element.valuesOf key, short with
      | [], _ => rfl
      | [_], _ => rfl
    calc ((callers ++ [own]).reverse.flatMap (Element.valuesOf key)).getLast?
        = ((callers ++ [own]).map fun element => (element.valuesOf key).getLast?).findSome? id := by
          rw [List.getLast?_flatMap, List.reverse_reverse, List.findSome?_map]; rfl
      _ = (callers ++ [own]).findSome? fun element => (element.valuesOf key).head? := by
          rw [single, List.findSome?_map]; rfl

/-! ### What resolving makes of both orders -/

variable {config : Config} {abbreviation : List Node}

/-- A lineage begins anywhere where more may begin. -/
theorem Lineage.mono {start wider : Element → Prop} {callers : List Element} {own : Element}
    (lineage : Lineage config start callers own)
    (widens : ∀ element, start element → wider element) : Lineage config wider callers own := by
  cases lineage with
  | own first => exact .own (widens _ first)
  | called first refers inner => exact .called (widens _ first) refers inner

/-- Everything in a lineage is met, if that is so of what the lineage may start with. -/
theorem Lineage.met {start : Element → Prop} {callers : List Element} {own : Element}
    (lineage : Lineage config start callers own)
    (starts : ∀ element, start element → Met config abbreviation element) :
    ∀ element ∈ callers ++ [own], Met config abbreviation element := by
  induction lineage with
  | own first => simpa using starts _ first
  | called first refers _ ih =>
    refine List.forall_mem_cons.mpr ⟨starts _ first, ih fun element mem => ?_⟩
    exact .snippet (starts _ first) refers (Node.root_mem_elementsAll mem)

/-- Two elements are drawn from the same lineage wherever more may begin. -/
theorem Drawn.mono {start wider : Element → Prop} {left right : Element}
    (drawn : Drawn config start left right) (widens : ∀ element, start element → wider element) :
    Drawn config wider left right := by
  obtain ⟨callers, own, lineage, isLeft, isRight⟩ := drawn
  exact ⟨callers, own, lineage.mono widens, isLeft, isRight⟩

/-- What comes from roots without callers has no further ones. -/
theorem Drawn.lower {roots : List Node} {left right : Element}
    (outermost : ∀ element ∈ Node.elementsAll roots, Outermost config abbreviation element)
    (drawn : Drawn config (· ∈ roots.map Node.element) left right) :
    Drawn config (Outermost config abbreviation) left right :=
  drawn.mono fun element mem => outermost element (Node.root_mem_elementsAll mem)

/-- What is drawn from later nodes is drawn from all. -/
theorem Drawn.further (first : Node) {rest : List Node} {left right : Element}
    (drawn : Drawn config (· ∈ rest.map Node.element) left right) :
    Drawn config (· ∈ (first :: rest).map Node.element) left right :=
  drawn.mono fun _ mem => List.mem_cons_of_mem _ mem

/-- A caller comes in front of a lineage that starts with what it refers to. -/
theorem Drawn.inherit {roots : List Element} {caller left right : Element}
    {written : List Node} (first : caller ∈ roots) (refers : Refers config caller written)
    (drawn : Drawn config (· ∈ written.map Node.element) left right) :
    Drawn config (· ∈ roots) (inherit false caller left) (inherit true caller right) := by
  obtain ⟨callers, own, lineage, rfl, rfl⟩ := drawn
  exact ⟨caller :: callers, own, .called first refers lineage, rfl, rfl⟩

/-- An outermost element is met. -/
theorem Outermost.met {element : Element} (outermost : Outermost config abbreviation element) :
    Met config abbreviation element := by
  obtain mem | ⟨caller, written, met, refers, mem⟩ := outermost
  · exact .abbreviation mem
  · exact .snippet met refers (Node.below_mem_elementsAll mem)

/-- Nodes that resolving an abbreviation may take up: their elements are met, and those below
their roots have no callers. -/
structure Taken (config : Config) (abbreviation todo : List Node) : Prop where
  met : ∀ element ∈ Node.elementsAll todo, Met config abbreviation element
  outermost : ∀ element ∈ Node.elementsAll (todo.flatMap Node.children),
    Outermost config abbreviation element

namespace Taken

variable {element : Element} {children rest : List Node}

/-- The elements of an abbreviation may be taken up. -/
theorem of_outermost {todo : List Node}
    (outermost : ∀ element ∈ Node.elementsAll todo, Outermost config abbreviation element) :
    Taken config abbreviation todo :=
  ⟨fun element mem => (outermost element mem).met, fun element mem =>
    outermost element (Node.below_mem_elementsAll mem)⟩

/-- The elements below a node that is taken up are outermost ones. -/
theorem below (taken : Taken config abbreviation (.node element children :: rest)) :
    ∀ inner ∈ Node.elementsAll children, Outermost config abbreviation inner := by
  intro inner mem
  refine taken.outermost inner ?_
  rw [List.flatMap_cons, Node.elementsAll_append, List.mem_append]
  exact .inl mem

/-- The nodes behind one that is taken up may be taken up. -/
theorem behind (taken : Taken config abbreviation (.node element children :: rest)) :
    Taken config abbreviation rest := by
  refine ⟨fun inner mem => taken.met inner ?_, fun inner mem => taken.outermost inner ?_⟩
  · rw [Node.elementsAll_cons, List.mem_cons, List.mem_append]
    exact .inr (.inr mem)
  · rw [List.flatMap_cons, Node.elementsAll_append, List.mem_append]
    exact .inr mem

/-- The element of a node that is taken up is met. -/
theorem root (taken : Taken config abbreviation (.node element children :: rest)) :
    Met config abbreviation element :=
  taken.met element List.mem_cons_self

/-- The nodes that a met element refers to may be taken up. -/
theorem inside {written : List Node} (met : Met config abbreviation element)
    (refers : Refers config element written) : Taken config abbreviation written :=
  ⟨fun _ mem => .snippet met refers mem, fun _ mem => .inr ⟨element, written, met, refers, mem⟩⟩

end Taken

/-- Nodes that are resolved with either order of attributes become trees of one shape, whose
roots come from the roots that were resolved and whose other elements have no further callers. -/
theorem resolveNodes_alike (config : Config) (abbreviation : List Node) (pending : List String)
    (todo : List Node) (taken : Taken config abbreviation todo) :
    Node.Alike (Drawn config (Outermost config abbreviation))
      (Drawn config (· ∈ todo.map Node.element))
      (resolveNodes (config.reversing false) pending todo)
      (resolveNodes (config.reversing true) pending todo) := by
  -- The order of the attributes decides nothing about which snippet is found, so that both runs
  -- take the same steps.
  induction pending, todo using resolve_induction config with
  | nil pending =>
    rw [resolveNodes, resolveNodes]
    exact .nil
  | stays pending element children rest stays below behind =>
    have inBoth (reversed : Bool) :
        snippet? (config.reversing reversed) pending element = none := stays
    rw [resolveNodes_stays (inBoth false), resolveNodes_stays (inBoth true)]
    have belowAlike := (below (.of_outermost taken.below)).mono fun _ _ =>
      Drawn.lower taken.below
    have behindAlike := (behind taken.behind).mono fun _ _ =>
      Drawn.further (.node element children)
    exact .cons ⟨[], element, .own List.mem_cons_self, rfl, rfl⟩ belowAlike behindAlike
  | expands pending element children rest text written found inside below behind =>
    have inBoth (reversed : Bool) :
        snippet? (config.reversing reversed) pending element = some (text, written) := found
    rw [resolveNodes_expands (inBoth false), resolveNodes_expands (inBoth true)]
    have belowAlike := (below (.of_outermost taken.below)).mono fun _ _ =>
      Drawn.lower taken.below
    have behindAlike := (behind taken.behind).mono fun _ _ =>
      Drawn.further (.node element children)
    obtain ⟨isText, -, read⟩ := snippet?_eq_some.mp found
    have refers : Refers config element written := ⟨text, isText, read⟩
    have isRoot : element ∈ (Node.node element children :: rest).map Node.element :=
      List.mem_cons_self
    have expanded := (inside (.inside taken.root refers)).map_mapElement fun _ _ drawn =>
      drawn.inherit isRoot refers
    exact (expanded.graft belowAlike).append behindAlike

/-- What is drawn from a lineage of elements with distinct keys differs at most in the order of
attributes once these are merged. -/
theorem Drawn.reordered {start : Element → Prop} {left right : Element}
    (drawn : Drawn config start left right)
    (starts : ∀ element, start element → Outermost config abbreviation element)
    (distinct : ∀ element, Met config abbreviation element → element.HasDistinctKeys) :
    Reordered config abbreviation (mergeAttributes (config.reversing false) left)
      (mergeAttributes (config.reversing true) right) := by
  obtain ⟨callers, own, lineage, rfl, rfl⟩ := drawn
  have allDistinct : ∀ element ∈ callers ++ [own], element.HasDistinctKeys := fun element mem =>
    distinct element (lineage.met (fun _ first => (starts _ first).met) element mem)
  obtain ⟨name, value, iteration, isSelfClosing⟩ := inherited_alike callers own
  exact
    { name, value, iteration, isSelfClosing
      keys := fun key => by
        simp only [mem_keys_mergeAttributes, mem_keys_inherited]
      values := fun key plain => by
        rw [valuesOf_merge_inherited config false allDistinct plain,
          valuesOf_merge_inherited config true allDistinct plain]
      outermost := ⟨callers, own, lineage.mono starts, rfl, rfl, fun key plain =>
        valuesOf_merge_inherited config false allDistinct plain⟩ }

/-- The option to reverse attributes only reorders them. If no element of an abbreviation, or of
a snippet that is read for it, has two attributes of one key, then resolving and merging give
trees of the same shape with the option and without it; the elements have the same names and
texts, the same keys, and for a key other than `class` the one value that the outermost caller
with that key gave. -/
theorem reverseAttributes_reorders (config : Config) (abbreviation : List Node)
    (distinct : ∀ element, Met config abbreviation element → element.HasDistinctKeys) :
    Node.Alike (Reordered config abbreviation) (Reordered config abbreviation)
      (Node.mapEachAll (mergeAttributes (config.reversing false))
        (resolveSnippets (config.reversing false) abbreviation))
      (Node.mapEachAll (mergeAttributes (config.reversing true))
        (resolveSnippets (config.reversing true) abbreviation)) := by
  have alike := resolveNodes_alike config abbreviation [] abbreviation
    (.of_outermost fun _ mem => .inl mem)
  exact alike.mapEachAll
    (fun _ _ drawn => drawn.reordered (fun _ mem => .inl (Node.root_mem_elementsAll mem)) distinct)
    fun _ _ drawn => drawn.reordered (fun _ => id) distinct

/-- The text of `x` refers to `y`, and both of them and the abbreviation `x[A=2]` write the
attribute `a`. -/
theorem reverseAttributes_reorders_nested :
    let config : Config :=
      { Config.ofSettings .blank with
        snippets := .ofList [("x", "y[a=1 c]"), ("y", "p[b=2 a=0].m>i[A=3]")] }
    let abbreviation : List Node :=
      [.node { Element.named "x" with attributes := [.named "A" (some [.text "2"])] } []]
    (∀ element, Met config abbreviation element → element.HasDistinctKeys) ∧
      Node.Alike (Reordered config abbreviation) (Reordered config abbreviation)
        (Node.mapEachAll (mergeAttributes (config.reversing false))
          (resolveSnippets (config.reversing false) abbreviation))
        (Node.mapEachAll (mergeAttributes (config.reversing true))
          (resolveSnippets (config.reversing true) abbreviation)) := by
  intro config abbreviation
  let found : List Element :=
    [{ Element.named "x" with attributes := [.named "A" (some [.text "2"])] },
      { Element.named "y" with
        attributes := [.named "a" (some [.text "1"]), .named "c" none] },
      { Element.named "p" with
        attributes := [.named "b" (some [.text "2"]), .named "a" (some [.text "0"]),
          .named "class" (some [.text "m"])] },
      { Element.named "i" with attributes := [.named "A" (some [.text "3"])] }]
  have closed : isClosed config found := by decide +kernel
  have starts : ∀ element ∈ Node.elementsAll abbreviation, element ∈ found := by decide +kernel
  have eachDistinct : ∀ element ∈ found, element.HasDistinctKeys := by decide +kernel
  have distinct : ∀ element, Met config abbreviation element → element.HasDistinctKeys :=
    fun element met => eachDistinct element (met.mem_of_isClosed closed starts)
  exact ⟨distinct, reverseAttributes_reorders config abbreviation distinct⟩

end Markup

end Shorthand
