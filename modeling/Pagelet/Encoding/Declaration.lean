import Pagelet.Encoding.Catalog
import Pagelet.Encoding.Utf8
import Pagelet.Text.Blank
import Pagelet.Text.LetterCase

/-!
# Declared encodings

A page may declare its encoding with `charset=` near its beginning.  The first
declaration that has a label counts; bytes without one, or with a label that
names no encoding of the catalog, are read as UTF-8.
-/

namespace Pagelet
namespace Encoding

/-- How many bytes are searched for a declaration. -/
def window : Nat := 8192

/-- The characters that end a label without quotes. -/
def endsLabel (c : Char) : Bool :=
  Text.isBlank c || ['"', '\'', ';', '<', '>', '/'].contains c

/-- The label as written at the front of the text, which is quoted or bare.  A
quoted label without its closing mark is none. -/
def writtenLabel? : List Char → Option (List Char)
  | [] => none
  | c :: rest =>
      if c = '"' ∨ c = '\'' then
        if rest.contains c then some (rest.takeWhile (· != c)) else none
      else some ((c :: rest).takeWhile (!endsLabel ·))

/-- The label at the front of the text, unless it is blank. -/
def label? (cs : List Char) : Option (List Char) :=
  ((writtenLabel? (Text.trimStart cs)).map Text.trim).filter (!·.isEmpty)

/-- What introduces a label. -/
def keyword : List Char := "charset=".toList

/-- The label of the first declaration in a text. -/
def declaredLabel? : List Char → Option (List Char)
  | [] => none
  | c :: rest =>
      let cs := c :: rest
      let here :=
        if Text.asciiLowercase (cs.take keyword.length) = keyword then
          label? (cs.drop keyword.length)
        else none
      here.or (declaredLabel? rest)

/-- The label that a page declares in its first bytes. -/
def sniffLabel? (bytes : List UInt8) : Option (List Char) :=
  declaredLabel? (Utf8.decode (bytes.take window))

/-- The text of a page, in the encoding that it declares. -/
def decodePage (catalog : Catalog) (bytes : List UInt8) : String :=
  String.ofList <|
    match (sniffLabel? bytes).bind catalog.ofLabel? with
    | some encoding => catalog.decode encoding bytes
    | none => Utf8.decode bytes

end Encoding
end Pagelet
