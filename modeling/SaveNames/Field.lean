import SaveNames.Locale

/-!
# The two name fields and their layout

A stored creature has two names: the nickname and the name of its trainer. How many
bytes each field has, and how many characters the game lets a player enter, follows from the
locale.
-/

namespace SaveNames

/-- One of the two names of a stored creature. -/
inductive Field
  | nickname
  | trainer
deriving DecidableEq, Repr

namespace Field

/-- Both fields. -/
def all : List Field := [.nickname, .trainer]

/-- The field's name in messages. -/
def label : Field → String
  | .nickname => "nickname"
  | .trainer => "trainer name"

/-- The field's name in reports. -/
def name : Field → String
  | .nickname => "nickname"
  | .trainer => "trainer"

end Field

/-- Buffer lengths and character caps of the two fields. -/
structure Layout where
  nicknameLength : Nat
  trainerLength : Nat
  maxNicknameChars : Nat
  maxTrainerChars : Nat
deriving DecidableEq, Repr

namespace Layout

/-- The length of a field's buffer. -/
def length (layout : Layout) : Field → Nat
  | .nickname => layout.nicknameLength
  | .trainer => layout.trainerLength

/-- The greatest number of characters that an edit of a field keeps. -/
def maxChars (layout : Layout) : Field → Nat
  | .nickname => layout.maxNicknameChars
  | .trainer => layout.maxTrainerChars

end Layout

/-- The layout that games of a locale use. -/
def Locale.layout : Locale → Layout
  | .japanese => ⟨6, 6, 5, 5⟩
  | .international => ⟨11, 11, 10, 7⟩

end SaveNames
