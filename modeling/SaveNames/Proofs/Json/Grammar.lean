import SaveNames.Json.Parser
import SaveNames.Proofs.HexGrammar

/-!
# The grammar of JSON

What a JSON text is, told without the parser. Every rule says which texts a kind of piece has and
what the piece means; values, objects and arrays are built up from each other (`IsValue`).

A string is spelled by *code points*, and an escape can spell half of a surrogate pair
(`Spells`). Two halves that stand together mean one character. **A half that stands alone is
spelled correctly and means nothing** (`text?`), so a value, a name or an object may have no meaning
although its text is well formed. This is what the `Option`s of the grammar are for.
-/

namespace SaveNames
namespace Json

/-! ## Blanks -/

/-- Blanks between tokens, perhaps none. -/
def IsGap (text : Text) : Prop := ∀ ch ∈ text, ch = ' ' ∨ ch = '\t' ∨ ch = '\n' ∨ ch = '\r'

/-! ## Strings -/

/-- The letters behind a backslash that stand for one character, and the characters. -/
def letterEscapes : List (Char × Char) :=
  [('"', '"'), ('\\', '\\'), ('/', '/'), ('b', '\x08'), ('f', '\x0c'), ('n', '\n'), ('r', '\r'),
    ('t', '\t')]

/-- The text between two quotes spells the code points: a character stands for itself, unless it is
a control character, a quote or a backslash; a backslash and a letter stand for the character of
the letter; and a backslash, a `u` and four hex digits for the number of the digits. -/
inductive Spells : Text → List Nat → Prop
  | nil : Spells [] []
  | plain {ch : Char} {rest : Text} {points : List Nat} (hcontrol : 0x20 ≤ ch.toNat)
    (hquote : ch ≠ '"') (hbackslash : ch ≠ '\\') :
    Spells rest points → Spells (ch :: rest) (ch.toNat :: points)
  | letter {letter meant : Char} {rest : Text} {points : List Nat}
    (h : (letter, meant) ∈ letterEscapes) :
    Spells rest points → Spells ('\\' :: letter :: rest) (meant.toNat :: points)
  | digits {a b c d : Char} {a' b' c' d' : Nat} {rest : Text} {points : List Nat}
    (ha : Hex.IsDigit a' a) (hb : Hex.IsDigit b' b) (hc : Hex.IsDigit c' c)
    (hd : Hex.IsDigit d' d) :
    Spells rest points → Spells ('\\' :: 'u' :: a :: b :: c :: d :: rest)
      ((0x1000 * a' + 0x100 * b' + 0x10 * c' + d') :: points)

/-- The text that code points mean, if every half of a surrogate pair stands with its other
half. -/
def text? : List Nat → Option Text
  | [] => some []
  | [point] =>
    if isHighSurrogate point || isLowSurrogate point then none else some [Char.ofNat point]
  | point :: next :: rest =>
    if isHighSurrogate point then
      if isLowSurrogate next then (text? rest).map (surrogatePair point next :: ·) else none
    else if isLowSurrogate point then none
    else (text? (next :: rest)).map (Char.ofNat point :: ·)

/-! ## Numbers -/

/-- At least one digit. -/
def IsDigits (text : Text) : Prop := text ≠ [] ∧ ∀ ch ∈ text, ch.isDigit = true

/-- A whole number: zero, or digits of which the first is not zero. -/
def IsWhole (text : Text) : Prop := text = ['0'] ∨ IsDigits text ∧ text.head? ≠ some '0'

/-- A fraction, or nothing. -/
def IsFraction (text : Text) : Prop := text = [] ∨ ∃ run, IsDigits run ∧ text = '.' :: run

/-- A sign in front of an exponent, or nothing. -/
def IsSign (text : Text) : Prop := text = [] ∨ text = ['+'] ∨ text = ['-']

/-- An exponent, or nothing. -/
def IsExponent (text : Text) : Prop :=
  text = [] ∨ ∃ mark sign run, (mark = 'e' ∨ mark = 'E') ∧ IsSign sign ∧ IsDigits run ∧
    text = mark :: (sign ++ run)

/-- A number. -/
def IsNumber (text : Text) : Prop :=
  ∃ minus whole fraction exponent, (minus = [] ∨ minus = ['-']) ∧ IsWhole whole ∧
    IsFraction fraction ∧ IsExponent exponent ∧ text = minus ++ (whole ++ (fraction ++ exponent))

/-! ## Values -/

/-- A member of an object: the name and the value, each if it has a meaning. -/
abbrev Member : Type := Option String × Option Json

/-- The members of an object, if all of them have a meaning. -/
def meant? (members : List Member) : Option (List (String × Json)) :=
  members.mapM fun member => do return (← member.1, ← member.2)

mutual

/-- A value without blanks around it. -/
inductive IsValue : Text → Option Json → Prop
  | null : IsValue ['n', 'u', 'l', 'l'] (some .null)
  | yes : IsValue ['t', 'r', 'u', 'e'] (some (.bool true))
  | no : IsValue ['f', 'a', 'l', 's', 'e'] (some (.bool false))
  | number {text : Text} (h : IsNumber text) : IsValue text (some (.number (String.ofList text)))
  | string {text : Text} {points : List Nat} (h : Spells text points) :
    IsValue ('"' :: (text ++ ['"'])) ((text? points).map fun text => .string (String.ofList text))
  | emptyArray {gap : Text} (h : IsGap gap) : IsValue ('[' :: (gap ++ [']'])) (some (.array []))
  | array {text : Text} {items : Option (List Json)} (h : IsItems text items) :
    IsValue ('[' :: (text ++ [']'])) (items.map .array)
  | object {text : Text} {members : List Member} (h : IsObject text members) :
    IsValue text ((meant? members).map .object)

/-- A value with blanks around it. -/
inductive IsElement : Text → Option Json → Prop
  | intro {front text behind : Text} {value : Option Json} (hfront : IsGap front)
    (hbehind : IsGap behind) (h : IsValue text value) : IsElement (front ++ (text ++ behind)) value

/-- The items of an array, one at least, with commas between. -/
inductive IsItems : Text → Option (List Json) → Prop
  | one {text : Text} {item : Option Json} (h : IsElement text item) :
    IsItems text (item.map fun item => [item])
  | cons {text rest : Text} {item : Option Json} {items : Option (List Json)}
    (h : IsElement text item) (hrest : IsItems rest items) :
    IsItems (text ++ ',' :: rest) (do return (← item) :: (← items))

/-- An object without blanks around it. -/
inductive IsObject : Text → List Member → Prop
  | empty {gap : Text} (h : IsGap gap) : IsObject ('{' :: (gap ++ ['}'])) []
  | members {text : Text} {members : List Member} (h : IsMembers text members) :
    IsObject ('{' :: (text ++ ['}'])) members

/-- The members of an object, one at least, with commas between. -/
inductive IsMembers : Text → List Member → Prop
  | one {text : Text} {member : Member} (h : IsMember text member) : IsMembers text [member]
  | cons {text rest : Text} {member : Member} {members : List Member} (h : IsMember text member)
    (hrest : IsMembers rest members) : IsMembers (text ++ ',' :: rest) (member :: members)

/-- A name and a value with a colon between. -/
inductive IsMember : Text → Member → Prop
  | intro {front name behind text : Text} {points : List Nat} {value : Option Json}
    (hfront : IsGap front) (hname : Spells name points) (hbehind : IsGap behind)
    (h : IsElement text value) :
    IsMember (front ++ '"' :: (name ++ '"' :: (behind ++ ':' :: text)))
      ((text? points).map String.ofList, value)

end

/-- The text holds one object with these members and nothing else but blanks. -/
def HoldsObject (text : Text) (members : List Member) : Prop :=
  ∃ front object behind, IsGap front ∧ IsObject object members ∧ IsGap behind ∧
    text = front ++ (object ++ behind)

/-- A text that holds an object is an element, and the object is its value if every member means
something. -/
theorem HoldsObject.isElement {text : Text} {members : List Member} (h : HoldsObject text members) :
    IsElement text ((meant? members).map .object) := by
  obtain ⟨front, object, behind, hfront, hobject, hbehind, rfl⟩ := h
  exact .intro hfront hbehind (.object hobject)

/-! ## The meaning of code points -/

/-- The code point of a character is no half of a surrogate pair. -/
theorem not_isSurrogate_toNat (ch : Char) :
    isHighSurrogate ch.toNat = false ∧ isLowSurrogate ch.toNat = false := by
  have hvalid : ch.toNat < 0xD800 ∨ 0xDFFF < ch.toNat ∧ ch.toNat < 0x110000 := ch.valid
  simp only [isHighSurrogate, isLowSurrogate, Bool.and_eq_false_iff, decide_eq_false_iff_not]
  omega

/-- A code point that is no half of a surrogate pair means a character by itself. -/
theorem text?_cons_of_not_isSurrogate {point : Nat} (hhigh : isHighSurrogate point = false)
    (hlow : isLowSurrogate point = false) (points : List Nat) :
    text? (point :: points) = (text? points).map (Char.ofNat point :: ·) := by
  cases points with
  | nil => simp [text?, hhigh, hlow]
  | cons next rest => simp [text?, hhigh, hlow]

/-- The code point of a character means this character, whatever stands behind it. -/
theorem text?_toNat_cons (ch : Char) (points : List Nat) :
    text? (ch.toNat :: points) = (text? points).map (ch :: ·) := by
  obtain ⟨hhigh, hlow⟩ := not_isSurrogate_toNat ch
  rw [text?_cons_of_not_isSurrogate hhigh hlow, Char.ofNat_toNat]

/-- The code points of a text mean the text. -/
theorem text?_map_toNat (text : Text) : text? (text.map Char.toNat) = some text := by
  induction text with
  | nil => rfl
  | cons ch text ih => rw [List.map_cons, text?_toNat_cons, ih, Option.map_some]

/-- The second half of a surrogate pair means nothing without a first one. -/
theorem text?_cons_of_isLowSurrogate {point : Nat} (hhigh : isHighSurrogate point = false)
    (hlow : isLowSurrogate point = true) (points : List Nat) : text? (point :: points) = none := by
  cases points with
  | nil => simp [text?, hlow]
  | cons next rest => simp [text?, hhigh, hlow]

/-- The first half of a surrogate pair means nothing without a second one behind it. -/
theorem text?_cons_of_isHighSurrogate {point : Nat} {points : List Nat}
    (hhigh : isHighSurrogate point = true)
    (hnext : ∀ next ∈ points.head?, isLowSurrogate next = false) :
    text? (point :: points) = none := by
  cases points with
  | nil => simp [text?, hhigh]
  | cons next rest =>
    have hlow : isLowSurrogate next = false := hnext next rfl
    simp [text?, hhigh, hlow]

/-- The two halves of a surrogate pair mean one character together. -/
theorem text?_pair {high low : Nat} (hhigh : isHighSurrogate high = true)
    (hlow : isLowSurrogate low = true) (points : List Nat) :
    text? (high :: low :: points) = (text? points).map (surrogatePair high low :: ·) := by
  simp [text?, hhigh, hlow]

end Json
end SaveNames
