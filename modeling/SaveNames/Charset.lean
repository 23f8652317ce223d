import SaveNames.Locale
import SaveNames.Charset.Western
import SaveNames.Charset.Kana
import SaveNames.Charset.Hanzi

/-!
# Character sets

A character set is a list of *slots*, and a slot holds one character or none. The position of
a slot is its *key*: the byte itself in the two single-byte sets, and
`256 · lead + trail` in the extended set.

The extended set serves writing and the two-byte half of reading. Its first page is the
international single-byte set **without the lead bytes**: a reader never takes a lead byte for
a character of its own, so a writer must not offer its slot. Every assigned slot of the
extended set can therefore be read back, and looking a character up is just finding the first
slot that holds it.
-/

namespace SaveNames

/-- The three character sets. -/
inductive Charset
  | japanese
  | international
  | extended
deriving DecidableEq, Repr

namespace Charset

/-! ## Slots -/

/-- A page of 256 slots: the given ones, and vacant ones behind them. -/
def page (slots : List (Option Char)) : List (Option Char) :=
  slots ++ vacant (256 - slots.length)

/-- The international set's slot for a byte, vacant for the bytes that open a two-byte
character. -/
def singleSlot (byte : Nat) : Option Char :=
  if Locale.international.isLead (UInt8.ofNat byte) then none else western[byte]?

/-- The page of the extended set for a high byte: single characters for zero, else the
two-byte characters behind that lead byte. -/
def extendedPage : Nat → List (Option Char)
  | 0 => (List.range 256).map singleSlot
  | lead => page (hanziPage lead)

/-- The slots of the Japanese set. -/
def japaneseSlots : List (Option Char) := page (kana.map some)

/-- The slots of the international set. -/
def internationalSlots : List (Option Char) := page (western.map some)

/-- The slots of the extended set, one page for each high byte up to the last lead byte. -/
def extendedSlots : List (Option Char) := (List.range 0x1F).flatMap extendedPage

/-- The slots of a set in key order. -/
def slots : Charset → List (Option Char)
  | .japanese => japaneseSlots
  | .international => internationalSlots
  | .extended => extendedSlots

/-- The number of keys of a set. -/
def size (charset : Charset) : Nat := charset.slots.length

/-! ## Lookup in both directions -/

/-- A key that lies past the last slot of its set. -/
structure KeyOutside where
  charset : Charset
  key : Nat
deriving DecidableEq, Repr

/-- The character in the slot of a key, `none` if the slot is vacant. -/
def lookup (charset : Charset) (key : Nat) : Except KeyOutside (Option Char) :=
  match charset.slots[key]? with
  | some slot => .ok slot
  | none => .error ⟨charset, key⟩

/-- The least key whose slot holds the character. -/
def keyOf? (charset : Charset) (ch : Char) : Option Nat :=
  charset.slots.idxOf? (some ch)

end Charset

/-! ## The sets of a locale -/

namespace Locale

/-- The set in which a reader looks single bytes up. -/
def singleCharset : Locale → Charset
  | .japanese => .japanese
  | .international => .international

/-- The set in which a writer looks characters up. -/
def writingCharset : Locale → Charset
  | .japanese => .japanese
  | .international => .extended

end Locale

end SaveNames
