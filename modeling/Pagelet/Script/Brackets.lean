import Pagelet.Text.Quotation

/-!
# Brackets in scripts

Strings in scripts stand between single quotes, double quotes or grave accents.
Brackets inside a string are plain text; the matcher below follows one kind of
bracket outside strings.  It counts open brackets without a bound, which words of
32 bits do as well in every text that opens fewer than `2 ^ 32` of them.
-/

namespace Pagelet
namespace Script

open Text (Quotation)

/-- The marks that open a string in a script. -/
def marks : List Char := ['\'', '"', '\x60']

/-- The text up to the bracket that closes the one standing open, and the text
after it.  `depth` counts the further brackets that are open meanwhile. -/
def closeFrom (opening closing : Char) :
    Nat → Quotation → List Char → Option (List Char × List Char)
  | _, _, [] => none
  | depth, state, c :: rest =>
      let read (depth : Nat) :=
        (closeFrom opening closing depth (state.next marks c) rest).map
          fun (inside, behind) => (c :: inside, behind)
      if state.covers marks c then read depth
      else if c = opening then read (depth + 1)
      else if c = closing then
        match depth with
        | 0 => some ([], rest)
        | depth + 1 => read depth
      else read depth

/-- Splits a text that begins with a bracket at the bracket's partner: what the
two enclose, and what comes behind. -/
def enclosed? (opening closing : Char) : List Char → Option (List Char × List Char)
  | [] => none
  | c :: rest =>
      if c = opening then closeFrom opening closing 0 .outside rest else none

end Script
end Pagelet
