import SaveNames.Error
import SaveNames.Text.Blank
import SaveNames.Text.HexDigit

/-!
# Hex dumps

A hex dump is a sequence of tokens between blanks and commas. A token is a run of digit pairs
in either case, which may carry `0x` or `0X` in front, so `0A FF`, `0x0a,0xff` and `0AFF` are
dumps of the same two bytes.

Printing gives one canonical dump: two upper-case digits for each byte, one space between.
-/

namespace SaveNames
namespace Hex

/-! ## Digit pairs -/

/-- The bytes of a run of digit pairs. -/
def pairs? : Text → Option Bytes
  | [] => some []
  | [_] => none
  | high :: low :: rest => do
    let high ← HexDigit.value? high
    let low ← HexDigit.value? low
    let bytes ← pairs? rest
    return UInt8.ofNat (16 * high + low) :: bytes

/-! ## Tokens -/

/-- Whether the character separates tokens. -/
def isSeparator (ch : Char) : Bool := isBlank ch || ch = ','

/-- The pieces of a text between its separators, empty ones included. -/
def pieces : Text → List Text
  | [] => [[]]
  | ch :: rest =>
    match isSeparator ch, pieces rest with
    | true, later => [] :: later
    | false, [] => [[ch]]
    | false, first :: later => (ch :: first) :: later

/-- The tokens of a dump: the pieces that are not empty. -/
def tokens (text : Text) : List Text := (pieces text).filter (!·.isEmpty)

/-- A token without the marker in front. -/
def body : Text → Text
  | '0' :: 'x' :: rest => rest
  | '0' :: 'X' :: rest => rest
  | token => token

/-- The bytes of a token. -/
def tokenBytes (token : Text) : Except NameError Bytes :=
  match pairs? (body token) with
  | some bytes => .ok bytes
  | none => .error (.badToken token)

/-! ## Dumps -/

/-- The bytes of a dump. The error names the first token that is no run of digit pairs. -/
def parse (text : Text) : Except NameError Bytes := do
  let parts ← (tokens text).mapM tokenBytes
  return parts.flatten

/-- The two digits of a byte. -/
def digits (byte : UInt8) : Text :=
  [HexDigit.upper (byte.toNat / 16), HexDigit.upper (byte.toNat % 16)]

/-- The canonical dump of a sequence of bytes. -/
def print (bytes : Bytes) : Text := [' '].intercalate (bytes.map digits)

end Hex
end SaveNames
