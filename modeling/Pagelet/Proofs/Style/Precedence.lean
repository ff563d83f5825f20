import Mathlib.Data.List.Induction
import Pagelet.Proofs.Text.Words
import Pagelet.Style.Cascade

/-!
# Which value wins

A set of properties gives a value to some properties and none to the others.  Of several sets
that are merged, the last one that sets a property decides it.  So a start tag has its values
from the strongest layer that sets them, and an element from the innermost tag of its chain
that does.
-/

namespace Pagelet
namespace Style

open Markup (Attributes)

/-- What a declaration can set: one of the five properties that are understood, or another
by its name. -/
inductive Property
  | color
  | background
  | weight
  | size
  | families
  | other (name : String)
deriving DecidableEq, Repr

/-- The values of a property. -/
def Property.Value : Property → Type
  | color => String
  | background => String
  | weight => FontWeight
  | size => Nat
  | families => List String
  | other _ => String

namespace Properties

/-- The value of one property, if it is set. -/
def get? (properties : Properties) : (property : Property) → Option property.Value
  | .color => properties.color
  | .background => properties.background
  | .weight => properties.weight
  | .size => properties.size
  | .families => properties.families
  | .other name => properties.other? name

@[simp]
theorem get?_empty (property : Property) : get? {} property = none := by
  cases property with
  | other name => exact Std.ExtTreeMap.getElem?_empty
  | _ => rfl

/-- Merging prefers what is merged later. -/
theorem get?_merge (earlier later : Properties) (property : Property) :
    (earlier.merge later).get? property =
      (later.get? property).or (earlier.get? property) := by
  cases property with
  | other name => exact Std.ExtTreeMap.getElem?_union
  | _ => rfl

/-- The last set of properties that sets a property decides it. -/
theorem get?_mergeAll (layers : List Properties) (property : Property) :
    (mergeAll layers).get? property = layers.reverse.findSome? (·.get? property) := by
  induction layers using List.reverseRecOn with
  | nil => exact get?_empty property
  | append_singleton layers last ih =>
      have merged : mergeAll (layers ++ [last]) = (mergeAll layers).merge last := by
        simp [mergeAll]
      rw [merged, get?_merge, ih, List.reverse_append, List.reverse_singleton,
        List.singleton_append, List.findSome?_cons]
      cases last.get? property <;> rfl

end Properties

/-- The value is given by the first member of the list that gives one. -/
def FirstGives {α β : Type _} (gives : α → β → Prop) (members : List α) (value : β) : Prop :=
  ∃ before member behind, members = before ++ member :: behind ∧ gives member value ∧
    ∀ earlier ∈ before, ∀ other, ¬ gives earlier other

/-- A search that tells what each member gives finds what the first to give anything gives. -/
theorem findSome?_eq_some_iff_firstGives {α β : Type _} {gives : α → β → Prop}
    {look : α → Option β} (tells : ∀ member value, look member = some value ↔ gives member value)
    {members : List α} {value : β} :
    members.findSome? look = some value ↔ FirstGives gives members value := by
  rw [List.findSome?_eq_some_iff, FirstGives]
  simp only [tells, ← Option.not_isSome_iff_eq_none, Option.isSome_iff_exists, not_exists]

/-- The first attribute with the name has the value. -/
def Says (attributes : Attributes) (name value : String) : Prop :=
  ∃ before behind, attributes = before ++ (name, value) :: behind ∧
    ∀ entry ∈ before, entry.1 ≠ name

/-- Looking up an attribute gives what the attributes say. -/
theorem get?_eq_some_iff {attributes : Attributes} {name value : String} :
    attributes.get? name = some value ↔ Says attributes name value := by
  rw [Attributes.get?, List.lookup_eq_some_iff, Says]
  simp only [bne_iff_ne, ne_comm]

/-- What a start tag can have its properties from. -/
inductive Layer
  /-- Its `style` attribute. -/
  | inline
  /-- The rule of its id. -/
  | id
  /-- The rule of its first class. -/
  | firstClass
  /-- The rule of its name. -/
  | name
deriving DecidableEq, Repr

/-- The layers, the strongest first. -/
def Layer.all : List Layer :=
  [inline, id, firstClass, name]

/-- A layer of a start tag holds some properties.  The id of a tag is what its first `id` attribute
says between blanks, and its class the first word of its first `class` attribute. -/
inductive Layer.Holds (table : RuleTable) (tag : String) (attributes : Attributes) :
    Layer → Properties → Prop
  /-- There is a `style` attribute. -/
  | inline {block : String} (given : Says attributes "style" block) :
      Holds table tag attributes .inline (Properties.parse block)
  /-- There is a rule of the id. -/
  | id {value : String} {core : List Char} {properties : Properties}
      (given : Says attributes "id" value) (trims : Text.TrimsTo value.toList core)
      (notEmpty : core ≠ []) (rule : table.rule? ("#" ++ String.ofList core) = some properties) :
      Holds table tag attributes .id properties
  /-- There is a rule of the first class. -/
  | firstClass {value : String} {word : List Char} {properties : Properties}
      (given : Says attributes "class" value) (first : Text.FirstWord value.toList word)
      (rule : table.rule? ("." ++ String.ofList word) = some properties) :
      Holds table tag attributes .firstClass properties
  /-- There is a rule of the name. -/
  | name {properties : Properties} (rule : table.rule? tag = some properties) :
      Holds table tag attributes .name properties

/-- The start tag gives the value to the property: the strongest layer that sets it does. -/
def RuleTable.Gives (table : RuleTable) (tag : String) (attributes : Attributes)
    (property : Property) : property.Value → Prop :=
  FirstGives (fun layer value => ∃ properties,
    Layer.Holds table tag attributes layer properties ∧ properties.get? property = some value)
    Layer.all

/-- The properties that a layer of a start tag has. -/
def Layer.properties? (table : RuleTable) (tag : String) (attributes : Attributes) :
    Layer → Option Properties
  | inline => inlineProperties? attributes
  | id => (idSelector? attributes).bind table.rule?
  | firstClass => (classSelector? attributes).bind table.rule?
  | name => table.rule? tag

section Layers

variable {table : RuleTable} {tag : String} {attributes : Attributes} {properties : Properties}

/-- The selector of an id is that of the trimmed value of the attribute, unless that is empty. -/
theorem idSelector?_eq_some_iff_exists {selector : String} :
    idSelector? attributes = some selector ↔
      ∃ value core, Says attributes "id" value ∧ Text.TrimsTo value.toList core ∧ core ≠ [] ∧
        selector = "#" ++ String.ofList core := by
  have spelled (c : Char) (rest : List Char) :
      String.ofList ('#' :: c :: rest) = "#" ++ String.ofList (c :: rest) :=
    @String.ofList_append ['#'] (c :: rest)
  rw [idSelector?, Option.bind_eq_bind, Option.bind_eq_some_iff]
  simp only [← get?_eq_some_iff, ← Text.trim_eq_iff]
  constructor
  · rintro ⟨value, found, named⟩
    cases trimmed : Text.trim value.toList with
    | nil => simp [trimmed] at named
    | cons c rest =>
        simp only [trimmed, spelled, Option.some.injEq] at named
        exact ⟨value, c :: rest, found, trimmed, List.cons_ne_nil c rest, named.symm⟩
  · rintro ⟨value, core, found, rfl, notEmpty, rfl⟩
    obtain ⟨c, rest, trimmed⟩ := List.exists_cons_of_ne_nil notEmpty
    exact ⟨value, found, by simp only [trimmed, spelled]⟩

/-- The selector of a class is that of the first word of the attribute. -/
theorem classSelector?_eq_some_iff {selector : String} :
    classSelector? attributes = some selector ↔
      ∃ value word, Says attributes "class" value ∧ Text.FirstWord value.toList word ∧
        selector = "." ++ String.ofList word := by
  have spelled (word : List Char) : String.ofList ('.' :: word) = "." ++ String.ofList word :=
    @String.ofList_append ['.'] word
  rw [classSelector?, Option.bind_eq_bind, Option.bind_eq_some_iff]
  simp only [Option.bind_eq_bind, Option.bind_eq_some_iff, get?_eq_some_iff,
    Text.head?_words_eq_some_iff, spelled, Option.some.injEq]
  constructor
  · rintro ⟨value, given, word, first, rfl⟩
    exact ⟨value, word, given, first, rfl⟩
  · rintro ⟨value, word, given, first, rfl⟩
    exact ⟨value, given, word, first, rfl⟩

/-- The properties that a layer has are those that it holds. -/
theorem properties?_eq_some_iff (layer : Layer) :
    layer.properties? table tag attributes = some properties ↔
      Layer.Holds table tag attributes layer properties := by
  cases layer with
  | inline =>
      simp only [Layer.properties?, inlineProperties?, Option.map_eq_some_iff, get?_eq_some_iff]
      constructor
      · rintro ⟨block, given, rfl⟩
        exact .inline given
      · rintro ⟨given⟩
        exact ⟨_, given, rfl⟩
  | id =>
      simp only [Layer.properties?, Option.bind_eq_some_iff, idSelector?_eq_some_iff_exists]
      constructor
      · rintro ⟨_, ⟨value, core, given, trims, notEmpty, rfl⟩, rule⟩
        exact .id given trims notEmpty rule
      · rintro (_ | ⟨given, trims, notEmpty, rule⟩)
        exact ⟨_, ⟨_, _, given, trims, notEmpty, rfl⟩, rule⟩
  | firstClass =>
      simp only [Layer.properties?, Option.bind_eq_some_iff, classSelector?_eq_some_iff]
      constructor
      · rintro ⟨_, ⟨value, word, given, first, rfl⟩, rule⟩
        exact .firstClass given first rule
      · rintro (_ | _ | ⟨given, first, rule⟩)
        exact ⟨_, ⟨_, _, given, first, rfl⟩, rule⟩
  | name =>
      refine ⟨.name, fun holds => ?_⟩
      cases holds with
      | name rule => exact rule

/-- What a start tag is resolved to is what its layers give. -/
theorem get?_resolve_eq_some_iff {property : Property} {value : property.Value} :
    (table.resolve tag attributes).get? property = some value ↔
      table.Gives tag attributes property value := by
  have layered : (table.resolve tag attributes).get? property =
      Layer.all.findSome? fun layer =>
        (layer.properties? table tag attributes).bind (·.get? property) := by
    rw [RuleTable.resolve, Properties.get?_mergeAll, RuleTable.layers, ← List.filterMap_reverse,
      ← List.head?_filterMap, List.filterMap_filterMap, List.head?_filterMap]
    rfl
  rw [layered]
  refine findSome?_eq_some_iff_firstGives fun layer value => ?_
  rw [Option.bind_eq_some_iff]
  simp only [properties?_eq_some_iff]

end Layers

/-- The innermost style of a chain that sets a property decides it. -/
theorem ResolvedStyles.get?_computed (styles : ResolvedStyles) (chain : List StyleRef)
    (property : Property) :
    (styles.computed chain).get? property =
      chain.reverse.findSome? fun ref => (styles.get? ref).bind (·.get? property) := by
  rw [computed, Properties.get?_mergeAll, ← List.filterMap_reverse, ← List.head?_filterMap,
    List.filterMap_filterMap, List.head?_filterMap]

end Style
end Pagelet
