import Pagelet.Text.Quoted.Hidden

/-!
# Quoted form of a text

Messages show a string between double quotes, with whatever would not be seen
written as an escape.
-/

namespace Pagelet
namespace Text
namespace Quoted

/-- A code point as an escape with lowercase hexadecimal digits. -/
def codeEscape (c : Char) : List Char :=
  ['\\', 'u', '{'] ++ Nat.toDigits 16 c.toNat ++ ['}']

/-- How one character is written inside the quotes. -/
def escape (c : Char) : List Char :=
  match c with
  | '"' => ['\\', '"']
  | '\\' => ['\\', '\\']
  | '\n' => ['\\', 'n']
  | '\r' => ['\\', 'r']
  | '\t' => ['\\', 't']
  | '\x00' => ['\\', '0']
  | _ => if inRanges hidden c.toNat then codeEscape c else [c]

end Quoted

/-- The text in double quotes, with escapes for marks and unseen characters. -/
def quoted (text : String) : String :=
  String.ofList ('"' :: text.toList.flatMap Quoted.escape ++ ['"'])

end Text
end Pagelet
