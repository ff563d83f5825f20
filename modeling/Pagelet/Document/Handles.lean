import Pagelet.Document

/-!
# Named listeners

Listeners are kept under names.  A name that was dropped is free again, and what
is bound to it later is a new listener; the old one is dead from then on.
-/

namespace Pagelet
namespace Document

/-- The listeners that are alive. -/
structure Handles where
  /-- The living listeners, by name. -/
  named : Std.ExtTreeMap String Handle compare := ∅
  /-- The number for the next new listener. -/
  nextNumber : Nat := 0

namespace Handles

/-- The listener of a name, which is made if there is none. -/
def obtain (handles : Handles) (name : String) : Handles × Handle :=
  match handles.named[name]? with
  | some handle => (handles, handle)
  | none =>
      let handle : Handle := ⟨handles.nextNumber⟩
      (⟨handles.named.insert name handle, handles.nextNumber + 1⟩, handle)

/-- Forgets the listener of a name; the flag says whether there was one. -/
def drop (handles : Handles) (name : String) : Handles × Bool :=
  ({ handles with named := handles.named.erase name }, handles.named.contains name)

/-- Whether a listener is alive. -/
def isLive (handles : Handles) (handle : Handle) : Bool :=
  handles.named.values.contains handle

/-- The texts that a listener has been sent, in order. -/
def texts (document : Document) (handle : Handle) : List String :=
  (document.notices.filter (·.handle == handle)).map (·.text)

/-- The living listeners by name, each with the texts it has been sent. -/
def listing (handles : Handles) (document : Document) : List (String × List String) :=
  handles.named.toList.map fun (name, handle) => (name, texts document handle)

end Handles

end Document
end Pagelet
