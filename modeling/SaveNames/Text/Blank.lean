import SaveNames.Basic

/-!
# Blank characters

The characters with the Unicode property `White_Space`, as ranges of code points. There are
twenty-five of them. The zero-width spaces and the byte order mark are not among them.
-/

namespace SaveNames
namespace Blank

/-- First and last code point of each range of blank characters. -/
def ranges : List (Nat × Nat) :=
  [(0x0009, 0x000D), (0x0020, 0x0020), (0x0085, 0x0085), (0x00A0, 0x00A0), (0x1680, 0x1680),
    (0x2000, 0x200A), (0x2028, 0x2029), (0x202F, 0x202F), (0x205F, 0x205F), (0x3000, 0x3000)]

end Blank

/-- Whether the character is blank. -/
def isBlank (ch : Char) : Bool :=
  Blank.ranges.any fun range => range.1 ≤ ch.toNat && ch.toNat ≤ range.2

end SaveNames
