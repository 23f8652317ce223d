import SaveNames.Basic

/-!
# Regional variants

A save was written by a **Japanese** or by an **international** game, and the two differ in
their character sets and in what a byte means. Only the international set has two-byte
characters: their first byte is a *lead byte*.
-/

namespace SaveNames

/-- The regional variant that a save was written with. -/
inductive Locale
  | japanese
  | international
deriving DecidableEq, Repr, Inhabited

namespace Locale

/-- The variant assumed where nothing names one. -/
def default : Locale := .international

/-- Every variant. -/
def all : List Locale := [.japanese, .international]

/-- The variant's name in settings and reports. -/
def name : Locale → String
  | .japanese => "japanese"
  | .international => "international"

/-- The variant with exactly this name. -/
def ofName? (name : String) : Option Locale := all.find? (·.name = name)

/-- Whether the byte opens a two-byte character. The letters `É` (`0x06`) and `é` (`0x1B`)
lie inside the lead range and are single bytes all the same. -/
def isLead : Locale → UInt8 → Bool
  | .japanese, _ => false
  | .international, byte => 0x01 ≤ byte && byte ≤ 0x1E && byte ≠ 0x06 && byte ≠ 0x1B

end Locale

end SaveNames
