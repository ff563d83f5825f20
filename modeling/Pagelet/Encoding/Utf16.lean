import Pagelet.Encoding.Utf8

/-!
# Bytes as UTF-16

Pairs of bytes are read as units, and pairs of surrogates as one character.  A
surrogate without its partner is an error, and so is a byte without its partner
at the end; the two together at the end are one error.
-/

namespace Pagelet
namespace Encoding
namespace Utf16

/-- Which byte of a unit comes first. -/
inductive ByteOrder
  | littleEndian
  | bigEndian
deriving DecidableEq, Repr

/-- The unit of two bytes. -/
def ByteOrder.unit : ByteOrder → UInt8 → UInt8 → Nat
  | littleEndian, first, second => second.toNat * 0x100 + first.toNat
  | bigEndian, first, second => first.toNat * 0x100 + second.toNat

/-- Whether the unit is the first of a pair. -/
def isLead (unit : Nat) : Bool :=
  0xD800 ≤ unit && unit ≤ 0xDBFF

/-- Whether the unit is the second of a pair. -/
def isTrail (unit : Nat) : Bool :=
  0xDC00 ≤ unit && unit ≤ 0xDFFF

/-- The character of a pair of surrogates. -/
def paired (lead trail : Nat) : Char :=
  Char.ofNat (0x10000 + (lead - 0xD800) * 0x400 + (trail - 0xDC00))

/-- What a unit outside pairs gives: characters, and the first unit of a pair. -/
def first (unit : Nat) : List Char × Option Nat :=
  if isLead unit then ([], some unit)
  else if isTrail unit then ([replacement], none)
  else ([Char.ofNat unit], none)

/-- What one more unit gives, after the first unit of a pair if there is one. -/
def next : Option Nat → Nat → List Char × Option Nat
  | none, unit => first unit
  | some lead, unit =>
      if isTrail unit then ([paired lead unit], none)
      else
        let step := first unit
        (replacement :: step.1, step.2)

/-- The text of bytes that follow on the first unit of a pair, if there is one. -/
def decodeFrom (order : ByteOrder) : Option Nat → List UInt8 → List Char
  | none, [] => []
  | some _, [] => [replacement]
  | _, [_] => [replacement]
  | lead, first :: second :: rest =>
      let step := next lead (order.unit first second)
      step.1 ++ decodeFrom order step.2 rest

/-- The text of a sequence of bytes. -/
def decode (order : ByteOrder) (bytes : List UInt8) : List Char :=
  decodeFrom order none bytes

end Utf16
end Encoding
end Pagelet
