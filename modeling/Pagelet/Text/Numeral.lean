/-!
# Numerals

Readers for written integers: digits of a base, an optional sign, and the bounds
of the machine words that hold them.
-/

namespace Pagelet
namespace Text

/-- The value of a digit in a base up to sixteen, in either letter case. -/
def digit? (base : Nat) (c : Char) : Option Nat :=
  let value? :=
    if '0' ≤ c ∧ c ≤ '9' then some (c.toNat - '0'.toNat)
    else if 'a' ≤ c ∧ c ≤ 'f' then some (c.toNat - 'a'.toNat + 10)
    else if 'A' ≤ c ∧ c ≤ 'F' then some (c.toNat - 'A'.toNat + 10)
    else none
  value?.filter (· < base)

/-- The number that a non-empty run of digits writes; nothing but digits may occur. -/
def digits? (base : Nat) (cs : List Char) : Option Nat :=
  if cs.isEmpty then none
  else cs.foldlM (fun number c => (digit? base c).map (number * base + ·)) 0

/-- An unsigned numeral that fits 32 bits; one leading `+` is allowed. -/
def word32? (base : Nat) (cs : List Char) : Option Nat :=
  let body := match cs with
    | '+' :: rest => rest
    | _ => cs
  (digits? base body).filter (· ≤ 0xFFFFFFFF)

/-- The 64-bit integer with this value, if it lies in range. -/
def exactInt64? (value : Int) : Option Int64 :=
  if -0x8000000000000000 ≤ value ∧ value ≤ 0x7FFFFFFFFFFFFFFF then some (Int64.ofInt value)
  else none

/-- A decimal numeral in the 64-bit range; one leading `+` or `-` is allowed. -/
def int64? (cs : List Char) : Option Int64 :=
  match cs with
  | '-' :: rest => (digits? 10 rest).bind fun number => exactInt64? (-number)
  | '+' :: rest => (digits? 10 rest).bind fun number => exactInt64? number
  | _ => (digits? 10 cs).bind fun number => exactInt64? number

/-- The result of a checked conversion has the value asked for. -/
theorem toInt_of_exactInt64? {value : Int} {word : Int64}
    (h : exactInt64? value = some word) : word.toInt = value := by
  unfold exactInt64? at h
  split at h
  · next bounds =>
      injection h with h
      rw [← h, Int64.toInt_ofInt_of_le] <;> omega
  · exact absurd h (by simp)

end Text
end Pagelet
