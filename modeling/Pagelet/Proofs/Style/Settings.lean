import Mathlib.Data.List.Dedup
import Pagelet.Proofs.Style.Precedence

/-!
# What a block sets

A declaration that can be used sets one property, which its name stands for.  The properties of
a block are those of its settings, merged in order, so every name has the value of the last
setting with this name, and as many properties are set as different names occur.
-/

namespace Pagelet
namespace Style

/-- The names of the five properties that are understood. -/
def understood : List String :=
  ["color", "background-color", "font-weight", "font-size", "font-family"]

namespace Property

/-- The property that a name stands for. -/
def ofName : String → Property
  | "color" => color
  | "background-color" => background
  | "font-weight" => weight
  | "font-size" => size
  | "font-family" => families
  | name => other name

/-- The name of a property. -/
def name : Property → String
  | color => "color"
  | background => "background-color"
  | weight => "font-weight"
  | size => "font-size"
  | families => "font-family"
  | other name => name

/-- The value that a text writes for a property, if the property can use it. -/
def read? : (property : Property) → String → Option property.Value
  | color, value => some value
  | background, value => some value
  | weight, value => fontWeight? value.toList
  | size, value => fontSize? value.toList
  | families, value => fontFamilies? value.toList
  | other _, value => some value

theorem name_ofName (name : String) : (ofName name).name = name := by
  unfold ofName
  split <;> rfl

/-- A property is known by its name. -/
theorem ofName_injective : Function.Injective ofName :=
  Function.LeftInverse.injective name_ofName

theorem ofName_eq_other {name : String} (unknown : name ∉ understood) :
    ofName name = other name := by
  unfold ofName
  split
  all_goals first | rfl | exact absurd (by decide) unknown

theorem ofName_ne_other {known : String} (member : known ∈ understood) (name : String) :
    ofName known ≠ other name := by
  intro same
  obtain rfl : known = name := (name_ofName known).symm.trans (congrArg Property.name same)
  revert same
  simp only [understood, List.mem_cons, List.not_mem_nil, or_false] at member
  rcases member with rfl | rfl | rfl | rfl | rfl <;> exact nofun

end Property

namespace Properties

/-- No other property than the one, which is set if there is a value. -/
def only : (property : Property) → Option property.Value → Properties
  | .color, value => { color := value }
  | .background, value => { background := value }
  | .weight, value => { weight := value }
  | .size, value => { size := value }
  | .families, value => { families := value }
  | .other _, none => {}
  | .other name, some value => { others := Std.ExtTreeMap.empty.insert name value }

/-- A single setting gives its value. -/
theorem get?_only (property : Property) (value : Option property.Value) :
    (only property value).get? property = value := by
  cases property with
  | other name =>
      cases value with
      | none => exact Std.ExtTreeMap.getElem?_empty
      | some value => exact Std.ExtTreeMap.getElem?_insert_self
  | _ => rfl

/-- A single setting gives nothing to other properties. -/
theorem get?_only_of_ne {property asked : Property} (apart : property ≠ asked)
    (value : Option property.Value) : (only property value).get? asked = none := by
  cases property <;> cases asked
  case other.other name asked =>
    have differs : compare name asked ≠ .eq := fun same =>
      apart (congrArg Property.other (Std.LawfulEqCmp.eq_of_compare same))
    cases value with
    | none => exact Std.ExtTreeMap.getElem?_empty
    | some value =>
        exact (Std.ExtTreeMap.getElem?_insert.trans (if_neg differs)).trans
          Std.ExtTreeMap.getElem?_empty
  all_goals first
    | exact absurd rfl apart
    | exact Std.ExtTreeMap.getElem?_empty
    | cases value <;> rfl

/-- Properties are the values they give. -/
theorem ext_get? {first second : Properties}
    (same : ∀ property, first.get? property = second.get? property) : first = second := by
  cases first
  cases second
  simp only [mk.injEq]
  exact ⟨same .color, same .background, same .weight, same .size, same .families,
    Std.ExtTreeMap.ext_getElem? fun name => same (.other name)⟩

theorem only_none (property : Property) : only property none = {} :=
  ext_get? fun asked => by
    rw [get?_empty]
    by_cases same : property = asked
    · exact same ▸ get?_only property none
    · exact get?_only_of_ne same none

theorem declare_of_not_mem {name : String} (unknown : name ∉ understood)
    (properties : Properties) (value : String) :
    properties.declare name value =
      { properties with others := properties.others.insert name value } := by
  unfold declare
  split
  all_goals first | rfl | exact absurd (by decide) unknown

/-- A declaration sets the property of its name, if this can use the value. -/
theorem declare_eq (properties : Properties) (name value : String) :
    properties.declare name value =
      properties.merge (only (Property.ofName name) ((Property.ofName name).read? value)) := by
  by_cases known : name ∈ understood
  · -- one field is set and the others are merged with nothing
    have merged : { properties.declare name value with others := properties.others } =
        { properties.declare name value with others := properties.others ∪ ∅ } :=
      congrArg ({ properties.declare name value with others := · })
        (congrArg Properties.others (merge_empty properties)).symm
    simp only [understood, List.mem_cons, List.not_mem_nil, or_false] at known
    rcases known with rfl | rfl | rfl | rfl | rfl <;> exact merged
  · have inserted : properties.others.insert name value =
        properties.others ∪ Std.ExtTreeMap.empty.insert name value :=
      Std.ExtTreeMap.ext_getElem? fun asked => by
        rw [Std.ExtTreeMap.getElem?_union, Std.ExtTreeMap.getElem?_insert,
          Std.ExtTreeMap.getElem?_insert]
        split
        · rfl
        · exact (congrArg (Option.or · _) Std.ExtTreeMap.getElem?_empty).symm
    rw [declare_of_not_mem known, Property.ofName_eq_other known]
    exact congrArg ({ properties with others := · }) inserted

end Properties

/-- A name with a value that its property can use. -/
structure Setting where
  /-- The name. -/
  name : String
  /-- The value of the property of this name. -/
  value : (Property.ofName name).Value

namespace Setting

/-- What an item of a block sets, if it can be used. -/
def ofItem? (item : List Char) : Option Setting :=
  (declaration? item).bind fun (name, value) =>
    ((Property.ofName name).read? value).map (Setting.mk name)

/-- The property that is set. -/
def properties (setting : Setting) : Properties :=
  .only (.ofName setting.name) (some setting.value)

/-- The value that is given to a name, if it is set. -/
def value? (setting : Setting) (name : String) : Option (Property.ofName name).Value :=
  if same : setting.name = name then some (same ▸ setting.value) else none

/-- The properties of a setting give its value to its name. -/
theorem get?_properties (setting : Setting) (name : String) :
    setting.properties.get? (.ofName name) = setting.value? name := by
  by_cases same : setting.name = name
  · subst same
    rw [value?, dif_pos rfl]
    exact Properties.get?_only _ _
  · rw [value?, dif_neg same]
    exact Properties.get?_only_of_ne (fun asked => same (Property.ofName_injective asked)) _

theorem isSome_value? (setting : Setting) (name : String) :
    (setting.value? name).isSome = true ↔ setting.name = name := by
  rw [value?]
  split <;> simp_all

end Setting

/-- What the items of a block set, in order. -/
def settings (block : List Char) : List Setting :=
  (splitExposed ';' block).filterMap Setting.ofItem?

namespace Properties

variable {block : List Char}

/-- A block sets what its settings set, one after another. -/
theorem ofBlock_eq_mergeAll (block : List Char) :
    ofBlock block = mergeAll ((settings block).map Setting.properties) := by
  rw [ofBlock, declarations, mergeAll, settings, List.foldl_map, List.foldl_filterMap,
    List.foldl_filterMap]
  congr
  funext properties item
  rw [Setting.ofItem?]
  rcases declaration? item with _ | ⟨name, value⟩
  · rfl
  · simp only [Option.bind_some, declare_eq]
    rcases (Property.ofName name).read? value with _ | read
    · rw [only_none, merge_empty]
      rfl
    · rfl

/-- A name has the value of its last setting. -/
theorem get?_ofBlock (block : List Char) (name : String) :
    (ofBlock block).get? (.ofName name) = (settings block).reverse.findSome? (·.value? name) := by
  rw [ofBlock_eq_mergeAll, get?_mergeAll, ← List.map_reverse, List.findSome?_map]
  exact congrArg (List.findSome? · _) (funext fun setting => setting.get?_properties name)

/-- The properties that are understood are never kept by name. -/
theorem other?_ofBlock {known : String} (member : known ∈ understood) (block : List Char) :
    (ofBlock block).other? known = none := by
  have notSet : (ofBlock block).get? (.other known) = none := by
    rw [ofBlock_eq_mergeAll, get?_mergeAll, List.findSome?_eq_none_iff]
    intro properties inside
    obtain ⟨setting, -, rfl⟩ := List.mem_map.1 (List.mem_reverse.1 inside)
    refine get?_only_of_ne (fun same => ?_) _
    obtain rfl : setting.name = known :=
      (Property.name_ofName _).symm.trans (congrArg Property.name same)
    exact Property.ofName_ne_other member _ same
  exact notSet

/-- The names under which something is set. -/
def names (properties : Properties) : List String :=
  understood.filter (fun name => (properties.get? (.ofName name)).isSome) ++
    properties.others.keys

/-- As many properties are counted as have names. -/
theorem length_names (properties : Properties) : properties.names.length = properties.count := by
  rw [names, List.length_append, Std.ExtTreeMap.length_keys, ← List.countP_eq_length_filter]
  rfl

/-- The names are those of the properties that have values. -/
theorem mem_names_iff {properties : Properties}
    (apart : ∀ name ∈ understood, properties.other? name = none) (name : String) :
    name ∈ properties.names ↔ (properties.get? (.ofName name)).isSome = true := by
  rw [names, List.mem_append, List.mem_filter, Std.ExtTreeMap.mem_keys,
    Std.ExtTreeMap.mem_iff_isSome_getElem?]
  by_cases known : name ∈ understood
  · have absent : properties.others[name]? = none := apart name known
    simp [known, absent]
  · rw [Property.ofName_eq_other known]
    simp only [known, false_and, false_or]
    rfl

theorem nodup_names {properties : Properties}
    (apart : ∀ name ∈ understood, properties.other? name = none) : properties.names.Nodup := by
  have distinct : understood.Nodup := by decide
  refine List.nodup_append'.2 ⟨distinct.filter _, Std.ExtTreeMap.nodup_keys, ?_⟩
  intro name first second
  have known : name ∈ understood := (List.mem_filter.1 first).1
  have absent : properties.others[name]? = none := apart name known
  rw [Std.ExtTreeMap.mem_keys, Std.ExtTreeMap.mem_iff_isSome_getElem?, absent] at second
  cases second

/-- A block sets as many properties as names occur in its settings. -/
theorem count_ofBlock (block : List Char) :
    (ofBlock block).count = ((settings block).map Setting.name).dedup.length := by
  have apart : ∀ name ∈ understood, (ofBlock block).other? name = none := fun name known =>
    other?_ofBlock known block
  have same : (ofBlock block).names.Perm ((settings block).map Setting.name).dedup := by
    refine (List.perm_ext_iff_of_nodup (nodup_names apart) (List.nodup_dedup _)).2 fun name => ?_
    rw [mem_names_iff apart, get?_ofBlock, List.findSome?_isSome_iff, List.mem_dedup, List.mem_map]
    simp only [List.mem_reverse, Setting.isSome_value?]
  rw [← length_names, same.length_eq]

end Properties

end Style
end Pagelet
