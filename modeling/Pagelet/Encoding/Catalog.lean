/-!
# Catalogs of encodings

Which labels name an encoding, and what bytes say in it, is settled by standards that are revised
apart from the reading of pages.  A page is read with the help of a catalog that knows them, and
nothing else is taken for granted about the encodings.
-/

namespace Pagelet
namespace Encoding

/-- Some encodings with their labels. -/
structure Catalog where
  /-- The encodings. -/
  Entry : Type
  /-- The encoding that a label names, if it names one. -/
  ofLabel? : List Char → Option Entry
  /-- The text of bytes in an encoding. -/
  decode : Entry → List UInt8 → List Char

end Encoding
end Pagelet
