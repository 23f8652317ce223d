import SaveNames.Field

/-!
# Errors

Every way in which the library refuses an input, as data, and the one place where an error
becomes a message.
-/

namespace SaveNames

/-- Why the contents of a file could not be had as text. -/
inductive FileFault
  /-- There is no such file. -/
  | notFound
  /-- The bytes of the file are not UTF-8. -/
  | notUtf8
  /-- The system does not let the file be read, in its own words. -/
  | refused (reason : String)
deriving DecidableEq, Repr

/-- The wording of a file fault. -/
def FileFault.message : FileFault → String
  | .notFound => "No such file or directory (os error 2)"
  | .notUtf8 => "stream did not contain valid UTF-8"
  | .refused reason => reason

/-- A refused input. -/
inductive NameError
  /-- A raw name buffer that is not as long as the layout asks. -/
  | wrongLength (field : Field) (expected actual : Nat)
  /-- A reader reached a lead byte with nothing behind it. -/
  | danglingLead (offset : Nat)
  /-- A token of a hex dump that is not a run of digit pairs. -/
  | badToken (token : Text)
  /-- A file that could not be read. -/
  | unreadable (fault : FileFault)
  /-- A settings file whose text is not a settings value. -/
  | badSettings (path : String)
deriving DecidableEq, Repr

/-- The message shown for an error. -/
def NameError.message : NameError → String
  | .wrongLength field expected actual =>
    field.label ++ " buffer is " ++ toString actual ++ " bytes, expected " ++ toString expected
  | .danglingLead offset =>
    "lead byte at offset " ++ toString offset ++ " has no trailing byte"
  | .badToken token => "invalid hex byte '" ++ String.ofList token ++ "'"
  | .unreadable fault => "IO error: " ++ fault.message
  | .badSettings path => "configuration error: " ++ path ++ ": not a settings value"

end SaveNames
