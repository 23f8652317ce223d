import SaveNames.Code

/-!
# Writing names

A writer first prepares the buffer by its padding, then places the codes of the text's
characters from the front, and then the terminator if a byte is left for it:

  `codes of the placed characters ++ terminator ++ rest of the prepared buffer`

Characters past the cap are cut before anything is placed. Placing ends at the first character
that has no code, or whose code does not fit; the characters before it stay. The outcome says
how far the writer came.
-/

namespace SaveNames

/-! ## Padding -/

/-- What a writer does to a buffer before it places characters. -/
inductive Padding
  /-- Leaves the old bytes. -/
  | keep
  /-- Fills the buffer with zeros. -/
  | zero
  /-- Fills the buffer with the fixed pad byte. -/
  | fixed
  /-- Fills the buffer with the terminator. -/
  | terminator
deriving DecidableEq, Repr, Inhabited

namespace Padding

/-- The padding assumed where nothing names one. -/
def default : Padding := .terminator

/-- Every padding. -/
def all : List Padding := [.keep, .zero, .fixed, .terminator]

/-- The padding's name in settings. -/
def name : Padding → String
  | .keep => "keep"
  | .zero => "clear_zero"
  | .fixed => "clear50"
  | .terminator => "clear_f_f"

/-- The padding with exactly this name in settings. -/
def ofName? (name : String) : Option Padding := all.find? (·.name = name)

/-- The byte that fills the buffer, `none` if the old bytes stay. -/
def fill? : Padding → Option UInt8
  | .keep => none
  | .zero => some 0
  | .fixed => some fixedFill
  | .terminator => some SaveNames.terminator

/-- The buffer as it is before any character is placed. -/
def prepare (padding : Padding) (buffer : Bytes) : Bytes :=
  match padding.fill? with
  | none => buffer
  | some byte => List.replicate buffer.length byte

theorem length_prepare (padding : Padding) (buffer : Bytes) :
    (padding.prepare buffer).length = buffer.length := by
  cases padding <;> simp [prepare, fill?]

end Padding

/-! ## Outcomes -/

/-- Why a writer stopped before the end of the capped text. -/
inductive Truncation
  /-- The character at this position has no code. -/
  | unmappable (index : Nat) (ch : Char)
  /-- The code of the character at this position did not fit. -/
  | bufferFull (index : Nat)
deriving DecidableEq, Repr

/-- How far a writer came. -/
structure Outcome where
  /-- Bytes written, the terminator included. -/
  len : Nat
  /-- Characters placed. -/
  chars : Nat
  /-- Characters cut by the cap. -/
  capped : Nat
  /-- What stopped the writer inside the capped text. -/
  truncation : Option Truncation
deriving DecidableEq, Repr

/-- Whether the whole text was written. -/
def Outcome.isComplete (outcome : Outcome) : Bool :=
  outcome.capped = 0 && outcome.truncation.isNone

/-! ## Placing characters -/

/-- The codes that a writer places, and what stops it. -/
structure Placement where
  codes : List Code
  truncation : Option Truncation
deriving DecidableEq, Repr

namespace Placement

/-- The bytes of the placed codes. -/
def bytes (placement : Placement) : Bytes := placement.codes.flatMap Code.bytes

/-- The placement with one more code in front. -/
def cons (code : Code) (placement : Placement) : Placement :=
  { placement with codes := code :: placement.codes }

/-- Places the characters of a text, the first of which is number `index`, as long as each
has a code and the code fits into the room left. -/
def ofText (locale : Locale) (index room : Nat) : Text → Placement
  | [] => ⟨[], none⟩
  | ch :: rest =>
    match locale.codeOf? ch with
    | none => ⟨[], some (.unmappable index ch)⟩
    | some code =>
      if code.width ≤ room then cons code (ofText locale (index + 1) (room - code.width) rest)
      else ⟨[], some (.bufferFull index)⟩

end Placement

/-! ## The written buffer -/

/-- The first bytes of a written buffer of `room` bytes: the placed codes, and the terminator
if a byte is left for it. -/
def terminated (room : Nat) (codes : Bytes) : Bytes := (codes ++ [terminator]).take room

/-- Writes a text into a buffer, at most `maxChars` characters of it. -/
def encode (locale : Locale) (padding : Padding) (maxChars : Nat) (text : Text)
    (buffer : Bytes) : Bytes × Outcome :=
  let placement := Placement.ofText locale 0 buffer.length (text.take maxChars)
  let written := terminated buffer.length placement.bytes
  (written ++ (padding.prepare buffer).drop written.length,
    { len := written.length
      chars := placement.codes.length
      capped := text.length - maxChars
      truncation := placement.truncation })

theorem length_terminated_le (room : Nat) (codes : Bytes) :
    (terminated room codes).length ≤ room := by
  rw [terminated, List.length_take]
  exact Nat.min_le_left _ _

/-- Writing keeps the length of the buffer. -/
theorem length_encode (locale : Locale) (padding : Padding) (maxChars : Nat) (text : Text)
    (buffer : Bytes) :
    (encode locale padding maxChars text buffer).1.length = buffer.length := by
  have h := length_terminated_le buffer.length
    (Placement.ofText locale 0 buffer.length (text.take maxChars)).bytes
  simp only [encode, List.length_append, List.length_drop, Padding.length_prepare]
  omega

/-- Writes a text into a fresh buffer of the given length. -/
def encodeFresh (locale : Locale) (padding : Padding) (maxChars length : Nat) (text : Text) :
    Bytes × Outcome :=
  encode locale padding maxChars text (blankBuffer length)

/-- Writes a text into a fresh buffer of the given length, if a buffer can be that long. -/
def encodeFresh? (locale : Locale) (padding : Padding) (maxChars length : Nat) (text : Text) :
    Option (Bytes × Outcome) :=
  if length ≤ maxBufferLength then some (encodeFresh locale padding maxChars length text) else none

section Fresh

variable (locale : Locale) (padding : Padding) (maxChars : Nat) {length : Nat} (text : Text)

/-- A buffer that can be had is written. -/
theorem encodeFresh?_of_le (h : length ≤ maxBufferLength) :
    encodeFresh? locale padding maxChars length text =
      some (encodeFresh locale padding maxChars length text) :=
  if_pos h

/-- Nothing is written into a buffer that cannot be had. -/
theorem encodeFresh?_of_lt (h : maxBufferLength < length) :
    encodeFresh? locale padding maxChars length text = none :=
  if_neg (Nat.not_le.mpr h)

end Fresh

end SaveNames
