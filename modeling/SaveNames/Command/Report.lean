import SaveNames.Json.Printer
import SaveNames.Writing

/-!
# JSON reports

The report of each task as a JSON object. The order of the members is part of the format.
-/

namespace SaveNames
namespace Command

/-- What stopped a writer, as a JSON value. -/
def truncationJson : Option Truncation → Json
  | none => .null
  | some (.unmappable index ch) =>
    .object [("kind", .string "unmappable"), ("index", .count index),
      ("ch", .string (String.singleton ch))]
  | some (.bufferFull index) =>
    .object [("kind", .string "buffer_full"), ("index", .count index)]

/-- An outcome as a JSON value. -/
def outcomeJson (outcome : Outcome) : Json :=
  .object [("len", .count outcome.len), ("chars", .count outcome.chars),
    ("capped", .count outcome.capped), ("truncation", truncationJson outcome.truncation)]

/-- The report of a decoding. The dump is given back as it came. -/
def decodeJson (locale : Locale) (dump : String) (text : Text) : Json :=
  .object [("locale", .string locale.name), ("bytes", .string dump),
    ("text", .string (String.ofList text))]

/-- The report of an encoding. -/
def encodeJson (locale : Locale) (text : String) (dump : Text) (outcome : Outcome) : Json :=
  .object [("locale", .string locale.name), ("text", .string text),
    ("bytes", .string (String.ofList dump)), ("outcome", outcomeJson outcome)]

/-- The report of a replacement of decimal points. -/
def fixupJson (locale : Locale) (korean : Bool) (replaced : Nat) (dump : Text) : Json :=
  .object [("locale", .string locale.name), ("korean", .bool korean),
    ("rewritten", .count replaced), ("bytes", .string (String.ofList dump))]

end Command
end SaveNames
