import SaveNames.Charset

/-!
# Code units of a buffer

**Every byte of a buffer belongs to exactly one code unit.** A unit is a single byte, a lead
byte with the byte behind it, or a lead byte that the end of the buffer leaves without one.
Reading a name, finding the trash behind it and replacing decimal points in it all work on
this one list, so they agree on where a two-byte character starts.
-/

namespace SaveNames

/-- One step of a reader through a buffer. -/
inductive CodeUnit
  /-- A byte on its own. -/
  | single (byte : UInt8)
  /-- A lead byte and the byte behind it, whatever that is. -/
  | double (lead trail : UInt8)
  /-- A lead byte in the last position of the buffer. -/
  | dangling (lead : UInt8)
deriving DecidableEq, Repr

namespace CodeUnit

/-- The bytes that a unit covers. -/
def bytes : CodeUnit → Bytes
  | .single byte => [byte]
  | .double lead trail => [lead, trail]
  | .dangling lead => [lead]

/-- How many bytes a unit covers. -/
def width (unit : CodeUnit) : Nat := unit.bytes.length

/-- The value of a unit as a number, big-endian. -/
def value : CodeUnit → Nat
  | .single byte => byte.toNat
  | .double lead trail => 256 * lead.toNat + trail.toNat
  | .dangling lead => lead.toNat

/-- The character that a unit stands for, `none` if it stands for no character. A two-byte
unit past the end of the extended set cannot be looked up; a scan never yields one. -/
def meaning (locale : Locale) (unit : CodeUnit) :
    Except Charset.KeyOutside (Option Char) :=
  match unit with
  | .single _ => locale.singleCharset.lookup unit.value
  | .double _ _ => Charset.extended.lookup unit.value
  | .dangling _ => .ok none

/-- The character that a unit shows to a reader. -/
def char? (locale : Locale) (unit : CodeUnit) : Option Char :=
  match unit.meaning locale with
  | .ok slot => slot
  | .error _ => none

/-- Whether reading goes on past the unit. -/
def isReadable (locale : Locale) (unit : CodeUnit) : Bool := (unit.char? locale).isSome

end CodeUnit

/-! ## Scanning -/

/-- The code units of a buffer. -/
def scan (locale : Locale) : Bytes → List CodeUnit
  | [] => []
  | [byte] => if locale.isLead byte then [.dangling byte] else [.single byte]
  | byte :: next :: rest =>
    if locale.isLead byte then .double byte next :: scan locale rest
    else .single byte :: scan locale (next :: rest)

/-- The bytes that a sequence of units covers. -/
def bytesOf (units : List CodeUnit) : Bytes := units.flatMap CodeUnit.bytes

/-- Scanning loses no byte: the units of a buffer cover it exactly, in order. -/
theorem bytesOf_scan (locale : Locale) (data : Bytes) :
    bytesOf (scan locale data) = data := by
  fun_induction scan locale data <;> simp_all [bytesOf, CodeUnit.bytes]

/-- How many bytes a sequence of units covers. -/
def widthOf (units : List CodeUnit) : Nat := (bytesOf units).length

/-- Units paired with the positions of their first bytes, the first unit at `start`. -/
def located (start : Nat) : List CodeUnit → List (Nat × CodeUnit)
  | [] => []
  | unit :: rest => (start, unit) :: located (start + unit.width) rest

end SaveNames
