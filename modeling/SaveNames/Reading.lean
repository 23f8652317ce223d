import SaveNames.CodeUnit
import SaveNames.Error

/-!
# Reading names

A reader goes through the units of a buffer and stops at the first one that stands for no
character: the terminator, an unassigned slot, or a dangling lead byte. The units before the
stop are the *name*, the bytes behind the stop are *trash*.

* `decode` is the text of the name.
* `decodeChecked` refuses a name that ends in a dangling lead byte.
* `trashStart` is where the trash begins.
-/

namespace SaveNames

/-- The units of the name: all those before the first that stands for no character. -/
def nameUnits (locale : Locale) (data : Bytes) : List CodeUnit :=
  (scan locale data).takeWhile (·.isReadable locale)

/-- The unit at which reading stops, if any does. -/
def stop? (locale : Locale) (data : Bytes) : Option CodeUnit :=
  (scan locale data).find? (!·.isReadable locale)

/-- The text of the name in a buffer. -/
def decode (locale : Locale) (data : Bytes) : Text :=
  (nameUnits locale data).filterMap (·.char? locale)

/-- The text of the name in a buffer, or an error if reading stops at a dangling lead byte. -/
def decodeChecked (locale : Locale) (data : Bytes) : Except NameError Text :=
  match stop? locale data with
  | some (.dangling _) => .error (.danglingLead (widthOf (nameUnits locale data)))
  | _ => .ok (decode locale data)

/-- The position of the first trash byte, just past the unit at which reading stops; the
length of the buffer if nothing stops it. -/
def trashStart (locale : Locale) (data : Bytes) : Nat :=
  widthOf (nameUnits locale data) + ((stop? locale data).map CodeUnit.width).getD 0

/-- The bytes behind the unit at which reading stops. -/
def trash (locale : Locale) (data : Bytes) : Bytes := data.drop (trashStart locale data)

end SaveNames
