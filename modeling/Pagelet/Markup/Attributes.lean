/-!
# Attributes of a tag
-/

namespace Pagelet
namespace Markup

/-- The attributes of a tag as names and values, in source order. -/
abbrev Attributes := List (String × String)

/-- The value of the first attribute with this name. -/
def Attributes.get? (attributes : Attributes) (name : String) : Option String :=
  attributes.lookup name

end Markup
end Pagelet
