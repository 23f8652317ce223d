import SaveNames.Command.Item
import SaveNames.Writing

/-!
# Invocations

An invocation is a command line that made sense: one task with its operand, and the general
options. General options may stand before and behind the command word. One that stands in both
places counts as it stands behind; one that stands twice in the same place is refused.

The parts are taken in order, so of two mistakes the first decides, and a request for help or
for the version wins over every mistake behind it.
-/

namespace SaveNames
namespace Command

/-! ## Values of options -/

/-- Counts are below this number, the 64th power of two. -/
def countLimit : Nat := 0x10000000000000000

/-- A count: decimal digits, perhaps behind a plus sign. -/
def count? (text : String) : Option Nat :=
  let digits := match text.toList with
    | '+' :: rest => rest
    | text => text
  if digits.isEmpty || !digits.all Char.isDigit then none
  else
    let value := digits.foldl (fun value digit => 10 * value + (digit.toNat - '0'.toNat)) 0
    if value < countLimit then some value else none

/-- The word for a padding on the command line. -/
def paddingWord : Padding → String
  | .keep => "keep"
  | .zero => "zero"
  | .fixed => "fill50"
  | .terminator => "fill-ff"

/-- The padding with exactly this word. -/
def padding? (word : String) : Option Padding := Padding.all.find? (paddingWord · = word)

/-- A path, which may not be empty. -/
def path? (text : String) : Option String := if text.isEmpty then none else some text

/-! ## Collecting parts -/

/-- What the parts of one scope give. -/
structure Given where
  config : Option String := none
  locale : Option Locale := none
  korean : Bool := false
  json : Bool := false
  strict : Bool := false
  len : Option Nat := none
  maxChars : Option Nat := none
  padding : Option Padding := none
  operand : Option String := none
deriving DecidableEq, Repr, Inhabited

/-- Why a command line does not lead to an invocation. -/
inductive Stop
  | help
  | version
  | usage (error : UsageError)
deriving DecidableEq, Repr

/-- The value of an option, which must be new and valid. -/
def once {α : Type} (opt : Opt) (old : Option α) (read : String → Option α) (value : String) :
    Except Stop (Option α) :=
  if old.isSome then .error (.usage (.repeated opt))
  else
    match read value with
    | some value => .ok (some value)
    | none => .error (.usage (.invalidValue opt value))

/-- A flag that is set now and must not have been set before. -/
def raised (opt : Opt) (old : Bool) : Except Stop Bool :=
  if old then .error (.usage (.repeated opt)) else .ok true

namespace Given

/-- Takes an option without a value. -/
def addFlag (given : Given) (opt : Opt) : Except Stop Given :=
  match opt with
  | .help => .error .help
  | .version => .error .version
  | .korean => return { given with korean := ← raised opt given.korean }
  | .json => return { given with json := ← raised opt given.json }
  | .strict => return { given with strict := ← raised opt given.strict }
  | _ => .error (.usage (.missingValue opt))

/-- Takes an option with its value. -/
def addSetting (given : Given) (opt : Opt) (value : String) : Except Stop Given :=
  match opt with
  | .config => return { given with config := ← once opt given.config path? value }
  | .locale => return { given with locale := ← once opt given.locale Locale.ofName? value }
  | .len => return { given with len := ← once opt given.len count? value }
  | .maxChars => return { given with maxChars := ← once opt given.maxChars count? value }
  | .pad => return { given with padding := ← once opt given.padding padding? value }
  | _ => .error (.usage (.unexpectedValue opt))

/-- Takes an operand. There is only one. -/
def addOperand (given : Given) (text : String) : Except Stop Given :=
  if given.operand.isSome then .error (.usage (.unknownArgument text))
  else .ok { given with operand := some text }

/-- Takes a part that stands in the scope of a command, or in front of the command word if it
is an option. -/
def add (given : Given) : Item → Except Stop Given
  | .flag opt => given.addFlag opt
  | .setting opt value => given.addSetting opt value
  | .operand text => given.addOperand text
  | .verb verb => .error (.usage (.unknownArgument verb.name))
  | .fault error => .error (.usage error)

end Given

/-- The parts taken so far, in front of the command word and behind it. -/
structure Collected where
  front : Given := {}
  behind : Option (Verb × Given) := none
deriving DecidableEq, Repr, Inhabited

/-- Takes one more part. -/
def Collected.add (collected : Collected) (item : Item) : Except Stop Collected :=
  match collected.behind, item with
  | some (verb, given), item => return { collected with behind := some (verb, ← given.add item) }
  | none, .verb verb => .ok { collected with behind := some (verb, {}) }
  | none, .operand text => .error (.usage (.unknownArgument text))
  | none, item => return { collected with front := ← collected.front.add item }

/-! ## Invocations -/

/-- What to do, and on what. -/
inductive Task
  /-- Read the name in a hex dump. -/
  | decode (dump : String) (strict : Bool)
  /-- Write a text into a fresh buffer. -/
  | encode (text : String) (len maxChars : Nat) (padding : Option Padding)
  /-- Replace the decimal points in a hex dump. -/
  | fixup (dump : String)
deriving DecidableEq, Repr

/-- A command line that made sense. -/
structure Invocation where
  config : Option String
  locale : Option Locale
  korean : Bool
  json : Bool
  task : Task
deriving DecidableEq, Repr

/-- The length of a fresh buffer where none is given: that of an international field. -/
def defaultLength : Nat := 11

/-- The task of a command with the options of its scope. The character cap is the buffer's
length unless it is given. -/
def Task.ofGiven (verb : Verb) (operand : String) (given : Given) : Task :=
  let len := given.len.getD defaultLength
  match verb with
  | .decode => .decode operand given.strict
  | .encode => .encode operand len (given.maxChars.getD len) given.padding
  | .fixup => .fixup operand

/-- The invocation that the collected parts make up. -/
def Collected.finish (collected : Collected) : Except Stop Invocation :=
  match collected.behind with
  | none => .error (.usage .missingCommand)
  | some (verb, given) =>
    match given.operand with
    | none => .error (.usage .missingOperand)
    | some operand =>
      .ok { config := given.config <|> collected.front.config
            locale := given.locale <|> collected.front.locale
            korean := given.korean || collected.front.korean
            json := given.json || collected.front.json
            task := Task.ofGiven verb operand given }

/-- The invocation that the arguments of a command line make up. -/
def Invocation.parse (arguments : List String) : Except Stop Invocation := do
  let collected ← (items .main arguments).foldlM Collected.add {}
  collected.finish

end Command
end SaveNames
