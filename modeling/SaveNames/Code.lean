import SaveNames.Charset

/-!
# Codes of characters

What a writer puts into a buffer for one character: one byte, or a lead byte and a trail
byte. The apostrophe is the one character that bypasses the sets: both its forms, `'` and `’`,
are written as the byte `0xB4` in every locale.
-/

namespace SaveNames

/-- The encoded form of one character. -/
inductive Code
  | single (byte : UInt8)
  | double (lead trail : UInt8)
deriving DecidableEq, Repr

namespace Code

/-- The bytes of a code in buffer order. -/
def bytes : Code → Bytes
  | .single byte => [byte]
  | .double lead trail => [lead, trail]

/-- How many bytes a code takes. -/
def width (code : Code) : Nat := code.bytes.length

/-- The code at a key: keys on the first page are single bytes. -/
def ofKey (key : Nat) : Code :=
  if key < 256 then .single (UInt8.ofNat key)
  else .double (UInt8.ofNat (key / 256)) (UInt8.ofNat (key % 256))

/-- The byte written for an apostrophe. -/
def apostropheByte : UInt8 := 0xB4

/-- Whether the character is an apostrophe, straight or typographic. -/
def isApostrophe (ch : Char) : Bool := ch = '\'' || ch = '’'

end Code

/-- The code of a character, `none` if the locale's set has no slot for it. -/
def Locale.codeOf? (locale : Locale) (ch : Char) : Option Code :=
  if Code.isApostrophe ch then some (.single Code.apostropheByte)
  else (locale.writingCharset.keyOf? ch).map Code.ofKey

end SaveNames
