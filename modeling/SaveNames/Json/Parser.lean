import SaveNames.Basic
import SaveNames.Json.Basic
import SaveNames.Text.HexDigit

/-!
# Parsing JSON

A text is read as one JSON value with JSON blanks around it. Every function takes the text
that is left and gives what it read together with the rest. Values nest, so the three
functions for values, items and members count down a *depth*; each bracket spends at most two
of it, and `Json.parse?` starts with more than any text of its length can spend.
-/

namespace SaveNames
namespace Json

/-- Whether the character may stand between the tokens of a JSON text. -/
def isSpace (ch : Char) : Bool := ch = ' ' || ch = '\t' || ch = '\n' || ch = '\r'

/-- The text behind its leading blanks. -/
def skip (text : Text) : Text := text.dropWhile isSpace

/-- The text behind a literal word. -/
def word? (word : Text) (text : Text) : Option Text :=
  if word.isPrefixOf text then some (text.drop word.length) else none

/-! ## Strings -/

/-- The value of four hex digits. -/
def hexQuad? (a b c d : Char) : Option Nat := do
  let a ← HexDigit.value? a
  let b ← HexDigit.value? b
  let c ← HexDigit.value? c
  let d ← HexDigit.value? d
  return 0x1000 * a + 0x100 * b + 0x10 * c + d

/-- Whether a value is the first half of a surrogate pair. -/
def isHighSurrogate (value : Nat) : Bool := 0xD800 ≤ value && value < 0xDC00

/-- Whether a value is the second half of a surrogate pair. -/
def isLowSurrogate (value : Nat) : Bool := 0xDC00 ≤ value && value < 0xE000

/-- The character of a surrogate pair. -/
def surrogatePair (high low : Nat) : Char :=
  Char.ofNat (0x10000 + 0x400 * (high - 0xD800) + (low - 0xDC00))

/-- The character of a one-letter escape. -/
def shortEscape? : Char → Option Char
  | '"' => some '"'
  | '\\' => some '\\'
  | '/' => some '/'
  | 'b' => some '\x08'
  | 'f' => some '\x0c'
  | 'n' => some '\n'
  | 'r' => some '\r'
  | 't' => some '\t'
  | _ => none

/-- What an escape means at the front of a text from which the backslash is gone, and how
many characters it takes. Half a surrogate pair means nothing. -/
def escape? : Text → Option (Char × Nat)
  | 'u' :: a :: b :: c :: d :: rest => do
    let value ← hexQuad? a b c d
    if isHighSurrogate value then
      match rest with
      | '\\' :: 'u' :: e :: f :: g :: h :: _ =>
        let low ← hexQuad? e f g h
        if isLowSurrogate low then return (surrogatePair value low, 11) else none
      | _ => none
    else if isLowSurrogate value then none
    else return (Char.ofNat value, 5)
  | ch :: _ => (shortEscape? ch).map fun meant => (meant, 1)
  | [] => none

/-- The characters of a string up to its closing quote. The first argument counts characters
that an escape before has used up. -/
def stringTail? : Nat → Text → Option (Text × Text)
  | _, [] => none
  | used + 1, _ :: rest => stringTail? used rest
  | 0, '"' :: rest => some ([], rest)
  | 0, '\\' :: rest => do
    let (meant, used) ← escape? rest
    let (value, rest) ← stringTail? used rest
    return (meant :: value, rest)
  | 0, ch :: rest => do
    if ch.toNat < 0x20 then none
    let (value, rest) ← stringTail? 0 rest
    return (ch :: value, rest)

/-- A string without its opening quote. -/
def string? (text : Text) : Option (String × Text) := do
  let (value, rest) ← stringTail? 0 text
  return (String.ofList value, rest)

/-! ## Numbers -/

/-- A run of at least one digit. -/
def digits? (text : Text) : Option (Text × Text) :=
  match text.takeWhile Char.isDigit with
  | [] => none
  | run => some (run, text.dropWhile Char.isDigit)

/-- The whole part of a number, which has no leading zero unless it is zero. -/
def whole? : Text → Option (Text × Text)
  | '0' :: rest => some (['0'], rest)
  | text => digits? text

/-- The fraction of a number, if it has one. -/
def fraction? : Text → Option (Text × Text)
  | '.' :: rest => do
    let (run, rest) ← digits? rest
    return ('.' :: run, rest)
  | text => some ([], text)

/-- A sign, if there is one. -/
def sign : Text → Text × Text
  | '+' :: rest => (['+'], rest)
  | '-' :: rest => (['-'], rest)
  | text => ([], text)

/-- The exponent of a number, if it has one. -/
def exponent? : Text → Option (Text × Text)
  | ch :: rest =>
    if ch = 'e' || ch = 'E' then do
      let (mark, rest) := sign rest
      let (run, rest) ← digits? rest
      return (ch :: mark ++ run, rest)
    else some ([], ch :: rest)
  | [] => some ([], [])

/-- A number as it is spelled. -/
def number? (text : Text) : Option (Json × Text) := do
  let (minus, text) := match text with
    | '-' :: rest => (['-'], rest)
    | _ => ([], text)
  let (whole, text) ← whole? text
  let (fraction, text) ← fraction? text
  let (exponent, text) ← exponent? text
  return (.number (String.ofList (minus ++ whole ++ fraction ++ exponent)), text)

/-! ## Values -/

/-- A value that is one token. -/
def atom? (text : Text) : Option (Json × Text) :=
  match text with
  | '"' :: rest => (string? rest).map fun (value, rest) => (.string value, rest)
  | 'n' :: _ => (word? "null".toList text).map fun rest => (.null, rest)
  | 't' :: _ => (word? "true".toList text).map fun rest => (.bool true, rest)
  | 'f' :: _ => (word? "false".toList text).map fun rest => (.bool false, rest)
  | _ => number? text

mutual

/-- A value, after blanks. -/
def value? : Nat → Text → Option (Json × Text)
  | 0, _ => none
  | depth + 1, text =>
    match skip text with
    | '[' :: rest =>
      match skip rest with
      | ']' :: rest => some (.array [], rest)
      | _ => (items? depth rest).map fun (items, rest) => (.array items, rest)
    | '{' :: rest =>
      match skip rest with
      | '}' :: rest => some (.object [], rest)
      | _ => (members? depth rest).map fun (members, rest) => (.object members, rest)
    | text => atom? text

/-- The items of an array up to its closing bracket. -/
def items? : Nat → Text → Option (List Json × Text)
  | 0, _ => none
  | depth + 1, text => do
    let (item, rest) ← value? depth text
    match skip rest with
    | ']' :: rest => return ([item], rest)
    | ',' :: rest =>
      let (items, rest) ← items? depth rest
      return (item :: items, rest)
    | _ => none

/-- The members of an object up to its closing brace. -/
def members? : Nat → Text → Option (List (String × Json) × Text)
  | 0, _ => none
  | depth + 1, text => do
    match skip text with
    | '"' :: rest =>
      let (name, rest) ← string? rest
      match skip rest with
      | ':' :: rest =>
        let (value, rest) ← value? depth rest
        match skip rest with
        | '}' :: rest => return ([(name, value)], rest)
        | ',' :: rest =>
          let (members, rest) ← members? depth rest
          return ((name, value) :: members, rest)
        | _ => none
      | _ => none
    | _ => none

end

/-- The value of a text that holds one JSON value and nothing else. -/
def parse? (text : Text) : Option Json := do
  let (value, rest) ← value? (2 * text.length + 2) text
  if (skip rest).isEmpty then some value else none

end Json
end SaveNames
