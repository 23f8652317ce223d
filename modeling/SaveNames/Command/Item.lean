import SaveNames.Command.Argument

/-!
# The parts of a command line

What the arguments mean one by one. A command line starts in the *main* scope, where general
options may stand, and a command word moves it into that command's scope, which knows the
general options as well as its own. `items` gives the parts in order, and the part at which
the line stops making sense, if there is one, is the last.
-/

namespace SaveNames
namespace Command

/-! ## Commands and options -/

/-- What the program can be asked to do. -/
inductive Verb
  | decode
  | encode
  | fixup
deriving DecidableEq, Repr

namespace Verb

/-- Every command. -/
def all : List Verb := [.decode, .encode, .fixup]

/-- The word for a command. -/
def name : Verb → String
  | .decode => "decode"
  | .encode => "encode"
  | .fixup => "fixup"

/-- The command with exactly this word. -/
def ofName? (name : String) : Option Verb := all.find? (·.name = name)

end Verb

/-- Where in a command line an argument stands. -/
inductive Scope
  | main
  | verb (verb : Verb)
deriving DecidableEq, Repr

/-- An option of the program or of one of its commands. -/
inductive Opt
  | config
  | locale
  | korean
  | json
  | strict
  | len
  | maxChars
  | pad
  | help
  | version
deriving DecidableEq, Repr

namespace Opt

/-- The long name of an option. -/
def name : Opt → String
  | .config => "config"
  | .locale => "locale"
  | .korean => "korean"
  | .json => "json"
  | .strict => "strict"
  | .len => "len"
  | .maxChars => "max-chars"
  | .pad => "pad"
  | .help => "help"
  | .version => "version"

/-- The one-letter name of an option. -/
def letter? : Opt → Option Char
  | .help => some 'h'
  | .version => some 'V'
  | _ => none

/-- Whether an option stands with a value. -/
def takesValue : Opt → Bool
  | .config | .locale | .len | .maxChars | .pad => true
  | .korean | .json | .strict | .help | .version => false

/-- The options that may stand in every scope. -/
def general : List Opt := [.config, .locale, .korean, .json, .help]

/-- The options of one scope only. -/
def special : Scope → List Opt
  | .main => [.version]
  | .verb .decode => [.strict]
  | .verb .encode => [.len, .maxChars, .pad]
  | .verb .fixup => []

/-- The options that may stand in a scope. -/
def accepted (scope : Scope) : List Opt := general ++ special scope

/-- The option that a long name stands for in a scope. Names are never shortened. -/
def ofName? (scope : Scope) (name : String) : Option Opt :=
  (accepted scope).find? (·.name = name)

/-- The option that a letter stands for in a scope. -/
def ofLetter? (scope : Scope) (letter : Char) : Option Opt :=
  (accepted scope).find? (·.letter? = some letter)

end Opt

/-! ## Parts -/

/-- Why a command line is refused. -/
inductive UsageError
  | unknownArgument (text : String)
  | unknownCommand (text : String)
  | missingCommand
  | missingOperand
  | missingValue (opt : Opt)
  | unexpectedValue (opt : Opt)
  | invalidValue (opt : Opt) (value : String)
  | repeated (opt : Opt)
deriving DecidableEq, Repr

/-- One part of a command line. -/
inductive Item
  /-- A command word. -/
  | verb (verb : Verb)
  /-- An option without a value. -/
  | flag (opt : Opt)
  /-- An option with its value. -/
  | setting (opt : Opt) (value : String)
  /-- What a command is to work on. -/
  | operand (text : String)
  /-- A part that makes no sense. -/
  | fault (error : UsageError)
deriving DecidableEq, Repr

/-- Whether an argument can be the value of the option in front of it. -/
def isWord (argument : String) : Bool :=
  match Argument.ofString argument with
  | .word _ => true
  | _ => false

/-- What the word `help` asks for: it may name one command, or itself. -/
def helpItem : List String → Item
  | [] => .flag .help
  | [topic] =>
    if (Verb.ofName? topic).isSome || topic = "help" then .flag .help
    else .fault (.unknownCommand topic)
  | _ :: next :: _ => .fault (.unknownCommand next)

/-- The parts of a command line from a scope on. -/
def items (scope : Scope) : List String → List Item
  | [] => []
  | argument :: rest =>
    match Argument.ofString argument with
    | .escape => rest.map Item.operand
    | .word text =>
      match scope with
      | .verb _ => .operand text :: items scope rest
      | .main =>
        match Verb.ofName? text with
        | some verb => .verb verb :: items (.verb verb) rest
        | none => if text = "help" then [helpItem rest] else [.fault (.unknownCommand text)]
    | .short letters =>
      match letters.head?.bind (Opt.ofLetter? scope) with
      | some opt => .flag opt :: items scope rest
      | none => [.fault (.unknownArgument argument)]
    | .long name value =>
      match Opt.ofName? scope name with
      | none => [.fault (.unknownArgument argument)]
      | some opt =>
        match opt.takesValue, value with
        | false, none => .flag opt :: items scope rest
        | false, some _ => [.fault (.unexpectedValue opt)]
        | true, some value => .setting opt value :: items scope rest
        | true, none =>
          match rest with
          | [] => [.fault (.missingValue opt)]
          | value :: later =>
            if isWord value then .setting opt value :: items scope later
            else [.fault (.missingValue opt)]

end Command
end SaveNames
