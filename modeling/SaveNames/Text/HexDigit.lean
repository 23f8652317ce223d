/-!
# Hex digits

Sixteen digits, read in either case and written in one.
-/

namespace SaveNames
namespace HexDigit

/-- The value of a digit of either case. -/
def value? (ch : Char) : Option Nat :=
  if '0' ≤ ch && ch ≤ '9' then some (ch.toNat - '0'.toNat)
  else if 'a' ≤ ch && ch ≤ 'f' then some (ch.toNat - 'a'.toNat + 10)
  else if 'A' ≤ ch && ch ≤ 'F' then some (ch.toNat - 'A'.toNat + 10)
  else none

/-- The digit of a value below sixteen, where `ten` is the digit of ten. -/
def ofValue (ten : Char) (value : Nat) : Char :=
  if value < 10 then Char.ofNat ('0'.toNat + value) else Char.ofNat (ten.toNat + (value - 10))

/-- The upper-case digit of a value below sixteen. -/
def upper (value : Nat) : Char := ofValue 'A' value

/-- The lower-case digit of a value below sixteen. -/
def lower (value : Nat) : Char := ofValue 'a' value

end HexDigit
end SaveNames
