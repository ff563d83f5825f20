import Pagelet.Text.LetterCase.Tables

/-!
# Lowercase text

The full lowercase mapping of Unicode: letter by letter, except that a capital
sigma at the end of a word becomes the final sigma and a dotted capital I keeps
its dot as a combining mark.
-/

namespace Pagelet
namespace Text
namespace LetterCase

/-- Whether the character takes part in letter case. -/
def isCased (c : Char) : Bool :=
  inRanges cased c.toNat

/-- Whether the character is passed over when a word's end is looked for. -/
def isIgnorable (c : Char) : Bool :=
  inRanges ignorable c.toNat

/-- The lowercase form of one code point. -/
def lowerCode (code : Nat) : Nat :=
  match runs.find? fun run =>
      run.first ≤ code && code ≤ run.last && (code - run.first) % run.step == 0 with
  | some run => run.image + (code - run.first)
  | none => code

/-- The lowercase form of a character, apart from its neighbours. -/
def lowerChar (c : Char) : List Char :=
  if c.toNat < 0x80 then [c.toLower]
  else if c = '\u0130' then ['i', '\u0307']
  else [Char.ofNat (lowerCode c.toNat)]

/-- Whether a cased letter follows, passing over ignorable characters. -/
def meetsCased (cs : List Char) : Bool :=
  match cs.dropWhile isIgnorable with
  | [] => false
  | c :: _ => isCased c

/-- Lowercase of a text; `afterCased` says that a cased letter stands before it,
passing over ignorable characters. -/
def lowerFrom (afterCased : Bool) : List Char → List Char
  | [] => []
  | c :: rest =>
      let form :=
        if c = '\u03a3' then
          if afterCased && !meetsCased rest then ['\u03c2'] else ['\u03c3']
        else lowerChar c
      form ++ lowerFrom (if isIgnorable c then afterCased else isCased c) rest

end LetterCase

/-- The lowercase form of a text. -/
def lowercase (cs : List Char) : List Char :=
  LetterCase.lowerFrom false cs

/-- The text with its ASCII capitals made small and all else kept. -/
def asciiLowercase (cs : List Char) : List Char :=
  cs.map Char.toLower

end Text
end Pagelet
