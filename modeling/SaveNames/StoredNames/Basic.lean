import SaveNames.DecimalPoint
import SaveNames.Language
import SaveNames.Writing

/-!
# The stored names of a creature

The record of a stored creature holds its two names. The buffers are kept byte for byte, trash
included, and both always have the lengths that the locale's layout asks.

An edit writes with the padding that the buffer already shows, so the bytes behind the name
stay what the game itself would have written there. The padding is read off the trash only:
zero is also the code of the space, so a zero inside the name says nothing.
-/

namespace SaveNames

/-- The default name of a species in a language and a generation of games. -/
abbrev SpeciesNames := UInt16 → Language → UInt8 → Text

/-- The names of one stored creature, and what bears on them. -/
structure StoredNames where
  locale : Locale
  generation : UInt8
  korean : Bool := false
  species : UInt16 := 0
  nicknamed : Bool := false
  nickname : Bytes
  trainer : Bytes
  nickname_length : nickname.length = locale.layout.nicknameLength
  trainer_length : trainer.length = locale.layout.trainerLength
deriving DecidableEq, Repr

namespace StoredNames

/-! ## Making records -/

/-- A record with two empty names. -/
def blank (locale : Locale) (generation : UInt8) : StoredNames :=
  { locale, generation
    nickname := blankBuffer locale.layout.nicknameLength
    trainer := blankBuffer locale.layout.trainerLength
    nickname_length := List.length_replicate
    trainer_length := List.length_replicate }

/-- A record over raw buffers. The nickname's length is checked first. -/
def ofBuffers (locale : Locale) (generation : UInt8) (nickname trainer : Bytes) :
    Except NameError StoredNames :=
  if nickname_length : nickname.length = locale.layout.nicknameLength then
    if trainer_length : trainer.length = locale.layout.trainerLength then
      .ok { locale, generation, nickname, trainer, nickname_length, trainer_length }
    else .error (.wrongLength .trainer locale.layout.trainerLength trainer.length)
  else .error (.wrongLength .nickname locale.layout.nicknameLength nickname.length)

/-! ## Fields -/

/-- The layout of the buffers. -/
def layout (stored : StoredNames) : Layout := stored.locale.layout

/-- The buffer of a field. -/
def buffer (stored : StoredNames) : Field → Bytes
  | .nickname => stored.nickname
  | .trainer => stored.trainer

/-- Each buffer is as long as the layout says. -/
theorem length_buffer (stored : StoredNames) (field : Field) :
    (stored.buffer field).length = stored.layout.length field := by
  cases field
  · exact stored.nickname_length
  · exact stored.trainer_length

/-- The record with another buffer of the same length in a field. -/
def withBuffer (stored : StoredNames) (field : Field) (bytes : Bytes)
    (h : bytes.length = (stored.buffer field).length) : StoredNames :=
  match field with
  | .nickname =>
    { stored with nickname := bytes, nickname_length := h.trans stored.nickname_length }
  | .trainer =>
    { stored with trainer := bytes, trainer_length := h.trans stored.trainer_length }

/-- The name that a reader sees in a field. -/
def name (stored : StoredNames) (field : Field) : Text := decode stored.locale (stored.buffer field)

/-! ## Raw operations on one field -/

/-- Puts raw bytes over those of a field. -/
def poke (stored : StoredNames) (field : Field) (offset : Nat) (bytes : Bytes) :
    StoredNames × Nat :=
  let result := overwrite (stored.buffer field) offset bytes
  (stored.withBuffer field result.1 (length_overwrite ..), result.2)

/-- Writes a text into a field. -/
def write (stored : StoredNames) (field : Field) (padding : Padding) (maxChars : Nat)
    (text : Text) : StoredNames × Outcome :=
  let result := encode stored.locale padding maxChars text (stored.buffer field)
  (stored.withBuffer field result.1 (length_encode ..), result.2)

/-- Replaces the decimal points of a field's name. -/
def replacePoints (stored : StoredNames) (field : Field) : StoredNames × Nat :=
  let result := replaceDecimalPoints stored.locale stored.korean (stored.buffer field)
  (stored.withBuffer field result.1 (length_replaceDecimalPoints ..), result.2)

/-! ## Edits -/

/-- The padding that a field shows: zeros if any trash byte is zero. -/
def paddingStyle (stored : StoredNames) (field : Field) : Padding :=
  if (trash stored.locale (stored.buffer field)).contains 0 then .zero else .fixed

/-- Writes a name into a field the way its game would. -/
def edit (stored : StoredNames) (field : Field) (text : Text) : StoredNames × Outcome :=
  stored.write field (stored.paddingStyle field) (stored.layout.maxChars field) text

/-- Gives the creature a nickname. Nothing is written if it has no nickname of its own and
already shows this name. -/
def setNickname (stored : StoredNames) (text : Text) : StoredNames × Option Outcome :=
  if !stored.nicknamed && stored.name .nickname = text then (stored, none)
  else
    let result := stored.edit .nickname text
    (result.1, some result.2)

/-- Renames the trainer. Nothing is written if the field already shows this name. -/
def setTrainerName (stored : StoredNames) (text : Text) : StoredNames × Option Outcome :=
  if stored.name .trainer = text then (stored, none)
  else
    let result := stored.edit .trainer text
    (result.1, some result.2)

/-- Sets whether the creature counts as nicknamed. -/
def setNicknamed (stored : StoredNames) (nicknamed : Bool) : StoredNames :=
  { stored with nicknamed }

/-- Sets the species. -/
def setSpecies (stored : StoredNames) (species : UInt16) : StoredNames := { stored with species }

/-- Sets whether the save is Korean. -/
def setKorean (stored : StoredNames) (korean : Bool) : StoredNames := { stored with korean }

/-- Takes the nickname away: the field gets the default name of the species, which may be as
long as the buffer and has its decimal points replaced. -/
def clearNickname (stored : StoredNames) (names : SpeciesNames) (language : Language) :
    StoredNames × Outcome :=
  let name := names stored.species language stored.generation
  let written := stored.write .nickname .fixed stored.nickname.length name
  ((written.1.replacePoints .nickname).1.setNicknamed false, written.2)

end StoredNames

end SaveNames
