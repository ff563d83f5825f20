/-!
# Bytes as UTF-8

Every sequence of bytes is read as text.  Where the bytes are no UTF-8, each
longest run of them that could begin a character counts as one error, as does
each byte that could begin none.
-/

namespace Pagelet
namespace Encoding

/-- The character that stands for bytes without a meaning. -/
def replacement : Char := '\ufffd'

namespace Utf8

/-- A character of which some bytes are still to come. -/
structure Pending where
  /-- How many bytes are to come after the next one. -/
  more : Nat
  /-- The least value of the next byte. -/
  low : UInt8 := 0x80
  /-- The greatest value of the next byte. -/
  high : UInt8 := 0xBF
  /-- The bits read so far. -/
  bits : Nat
deriving DecidableEq, Repr

/-- What the first byte of a character calls for.  The ranges of the second byte
leave out overlong forms, surrogates and codes that are too large. -/
def Pending.ofLead? (byte : UInt8) : Option Pending :=
  let code := byte.toNat
  if 0xC2 ≤ byte ∧ byte ≤ 0xDF then some { more := 0, bits := code - 0xC0 }
  else if byte = 0xE0 then some { more := 1, low := 0xA0, bits := 0 }
  else if byte = 0xED then some { more := 1, high := 0x9F, bits := 0xD }
  else if 0xE1 ≤ byte ∧ byte ≤ 0xEF then some { more := 1, bits := code - 0xE0 }
  else if byte = 0xF0 then some { more := 2, low := 0x90, bits := 0 }
  else if 0xF1 ≤ byte ∧ byte ≤ 0xF3 then some { more := 2, bits := code - 0xF0 }
  else if byte = 0xF4 then some { more := 2, high := 0x8F, bits := 4 }
  else none

/-- What a byte between characters gives: characters, and what is still to come. -/
def first (byte : UInt8) : List Char × Option Pending :=
  if byte < 0x80 then ([Char.ofNat byte.toNat], none)
  else
    match Pending.ofLead? byte with
    | some pending => ([], some pending)
    | none => ([replacement], none)

/-- The bits with those of one more byte. -/
def Pending.bitsWith (pending : Pending) (byte : UInt8) : Nat :=
  pending.bits * 0x40 + (byte.toNat - 0x80)

/-- What one more byte gives. -/
def next : Option Pending → UInt8 → List Char × Option Pending
  | none, byte => first byte
  | some pending, byte =>
      if pending.low ≤ byte ∧ byte ≤ pending.high then
        match pending.more with
        | 0 => ([Char.ofNat (pending.bitsWith byte)], none)
        | more + 1 => ([], some { more, bits := pending.bitsWith byte })
      else
        let step := first byte
        (replacement :: step.1, step.2)

/-- The text of bytes that follow on a character begun before. -/
def decodeFrom : Option Pending → List UInt8 → List Char
  | none, [] => []
  | some _, [] => [replacement]
  | pending, byte :: rest =>
      let step := next pending byte
      step.1 ++ decodeFrom step.2 rest

/-- The text of a sequence of bytes. -/
def decode (bytes : List UInt8) : List Char :=
  decodeFrom none bytes

end Utf8
end Encoding
end Pagelet
