import Pagelet.Encoding.Catalog
import Pagelet.Encoding.CodePage
import Pagelet.Encoding.Utf16
import Pagelet.Text.Blank
import Pagelet.Text.LetterCase

/-!
# A basic catalog of encodings

Unicode, a few encodings of one byte to the character, and the marks at the beginning of a page
that overrule its label.  Most encodings are missing, all of those with several bytes to the
character among them: a label of such an encoding names nothing here.
-/

namespace Pagelet

/-- An encoding of the basic catalog. -/
inductive Encoding
  | utf8
  | utf16 (order : Encoding.Utf16.ByteOrder)
  | codePage (page : Encoding.CodePage)
  /-- Stands for encodings that are not read: any text becomes one replacement
  character. -/
  | unread
deriving DecidableEq, Repr

namespace Encoding

/-- The labels of each encoding of the basic catalog, in small letters. -/
def labels : List (Encoding × List String) :=
  [ (.utf8,
      ["unicode-1-1-utf-8", "unicode11utf8", "unicode20utf8", "utf-8", "utf8", "x-unicode20utf8"]),
    (.codePage .windows1252,
      ["ansi_x3.4-1968", "ascii", "cp1252", "cp819", "csisolatin1", "ibm819", "iso-8859-1",
        "iso-ir-100", "iso8859-1", "iso88591", "iso_8859-1", "iso_8859-1:1987", "l1", "latin1",
        "us-ascii", "windows-1252", "x-cp1252"]),
    (.codePage .latin2,
      ["csisolatin2", "iso-8859-2", "iso-ir-101", "iso8859-2", "iso88592", "iso_8859-2",
        "iso_8859-2:1987", "l2", "latin2"]),
    (.codePage .windows1251, ["cp1251", "windows-1251", "x-cp1251"]),
    (.codePage .latin9,
      ["csisolatin9", "iso-8859-15", "iso8859-15", "iso885915", "iso_8859-15", "l9"]),
    (.codePage .userDefined, ["x-user-defined"]),
    (.utf16 .littleEndian,
      ["csunicode", "iso-10646-ucs-2", "ucs-2", "unicode", "unicodefeff", "utf-16", "utf-16le"]),
    (.utf16 .bigEndian, ["unicodefffe", "utf-16be"]),
    (.unread,
      ["csiso2022kr", "hz-gb-2312", "iso-2022-cn", "iso-2022-cn-ext", "iso-2022-kr",
        "replacement"]) ]

/-- The text without the ASCII blanks at its ends. -/
def trimAscii (cs : List Char) : List Char :=
  ((cs.dropWhile Text.isAsciiBlank).reverse.dropWhile Text.isAsciiBlank).reverse

/-- The encoding of the basic catalog that a label names, in any letter case and with
ASCII blanks around it. -/
def ofLabel? (label : List Char) : Option Encoding :=
  let name := String.ofList (Text.asciiLowercase (trimAscii label))
  (labels.find? fun (_, names) => names.contains name).map Prod.fst

/-- The text of bytes in an encoding. -/
def decodeBody : Encoding → List UInt8 → List Char
  | utf8, bytes => Utf8.decode bytes
  | utf16 order, bytes => Utf16.decode order bytes
  | codePage page, bytes => page.decode bytes
  | unread, [] => []
  | unread, _ :: _ => [replacement]

/-- The encoding that a mark at the beginning of the bytes tells, and the bytes
behind the mark. -/
def byteOrderMark? : List UInt8 → Option (Encoding × List UInt8)
  | 0xEF :: 0xBB :: 0xBF :: rest => some (utf8, rest)
  | 0xFF :: 0xFE :: rest => some (utf16 .littleEndian, rest)
  | 0xFE :: 0xFF :: rest => some (utf16 .bigEndian, rest)
  | _ => none

/-- The text of bytes in an encoding, unless a mark at their beginning tells
another. -/
def decode (encoding : Encoding) (bytes : List UInt8) : List Char :=
  match byteOrderMark? bytes with
  | some (marked, rest) => marked.decodeBody rest
  | none => encoding.decodeBody bytes

/-- The basic catalog. -/
def Catalog.basic : Catalog where
  Entry := Encoding
  ofLabel? := Encoding.ofLabel?
  decode := Encoding.decode

end Encoding
end Pagelet
