import SaveNames.Locale

/-!
# Languages

The languages that a game can be in, with the numbers by which saves refer to them. The
number `6` is not in use.
-/

namespace SaveNames

/-- The language of a game. -/
inductive Language
  | japanese
  | english
  | french
  | italian
  | german
  | spanish
  | korean
  | chineseSimplified
  | chineseTraditional
deriving DecidableEq, Repr

namespace Language

/-- Every language, in the order of the numbers. -/
def all : List Language :=
  [.japanese, .english, .french, .italian, .german, .spanish, .korean, .chineseSimplified,
    .chineseTraditional]

/-- The number that stands for the language in saves. -/
def id : Language → UInt8
  | .japanese => 1
  | .english => 2
  | .french => 3
  | .italian => 4
  | .german => 5
  | .spanish => 7
  | .korean => 8
  | .chineseSimplified => 9
  | .chineseTraditional => 10

/-- The language's name in reports. -/
def name : Language → String
  | .japanese => "japanese"
  | .english => "english"
  | .french => "french"
  | .italian => "italian"
  | .german => "german"
  | .spanish => "spanish"
  | .korean => "korean"
  | .chineseSimplified => "chinese_s"
  | .chineseTraditional => "chinese_t"

/-- The language with this number. Most numbers, and all that are no byte, stand for none. -/
def ofNumber? (number : Int) : Option Language := all.find? (Int.ofNat ·.id.toNat = number)

/-- The language with exactly this name. -/
def ofName? (name : String) : Option Language := all.find? (·.name = name)

/-- The variant in which games of the language store names. -/
def locale : Language → Locale
  | .japanese => .japanese
  | _ => .international

end Language

end SaveNames
