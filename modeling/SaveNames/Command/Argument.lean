import SaveNames.Basic

/-!
# Arguments

How one argument of a command line looks, before anyone asks what it means: an option by its
long name, perhaps with a value behind an equals sign; a group of one-letter options; the bare
`--`, behind which nothing is an option; or a plain word. A single `-` is a plain word, and so
is the empty argument.
-/

namespace SaveNames
namespace Command

/-- The form of an argument. -/
inductive Argument
  | escape
  | long (name : String) (value : Option String)
  | short (letters : Text)
  | word (text : String)
deriving DecidableEq, Repr

namespace Argument

/-- A long option from what stands behind its two dashes. The value begins behind the first
equals sign. -/
def ofLong (text : Text) : Argument :=
  let name := String.ofList (text.takeWhile (· ≠ '='))
  match text.dropWhile (· ≠ '=') with
  | [] => .long name none
  | _ :: value => .long name (some (String.ofList value))

/-- The form of an argument. -/
def ofString (text : String) : Argument :=
  match text.toList with
  | ['-', '-'] => .escape
  | '-' :: '-' :: rest => ofLong rest
  | ['-'] => .word text
  | '-' :: letters => .short letters
  | _ => .word text

end Argument
end Command
end SaveNames
