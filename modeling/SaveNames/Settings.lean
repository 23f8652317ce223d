import SaveNames.Error
import SaveNames.Json.Parser
import SaveNames.Json.Printer
import SaveNames.Writing

/-!
# Settings

The parameters that all calls against one save share, and the JSON file that can hold them:

* an **object** gives any of the three settings by name, each at most once;
* an **array** gives them by position, in the order locale, korean, pad;
* what is not given has its default, and nothing else may stand in the file.

A locale or a padding is given by its name, or by an object whose only member has that name
and the value `null`.
-/

namespace SaveNames

/-- The parameters of a save. -/
structure Settings where
  locale : Locale := Locale.default
  korean : Bool := false
  padding : Padding := Padding.default
deriving DecidableEq, Repr, Inhabited

namespace Settings

/-! ## Single settings -/

/-- The name that a value chooses, either spelling. -/
def choice? : Json → Option String
  | .string name => some name
  | .object [(name, .null)] => some name
  | _ => none

/-- The locale that a value gives. -/
def locale? (value : Json) : Option Locale := (choice? value).bind Locale.ofName?

/-- The flag that a value gives. -/
def korean? : Json → Option Bool
  | .bool korean => some korean
  | _ => none

/-- The padding that a value gives. -/
def padding? (value : Json) : Option Padding := (choice? value).bind Padding.ofName?

/-- What a setting is: the default where no value is given, else what the value gives. -/
def given? {α : Type} (read : Json → Option α) (default : α) : Option Json → Option α
  | none => some default
  | some value => read value

/-! ## Settings values -/

/-- Settings from the values that are given for them. -/
def ofValues? (locale korean padding : Option Json) : Option Settings := do
  let locale ← given? locale? Locale.default locale
  let korean ← given? korean? false korean
  let padding ← given? padding? Padding.default padding
  return { locale, korean, padding }

/-- The names of the settings. -/
def names : List String := ["locale", "korean", "pad"]

/-- Settings from the members of an object. -/
def ofMembers? (members : List (String × Json)) : Option Settings :=
  let given := members.map Prod.fst
  if given.Nodup ∧ ∀ name ∈ given, name ∈ names then
    ofValues? (members.lookup "locale") (members.lookup "korean") (members.lookup "pad")
  else none

/-- Settings from the items of an array. -/
def ofItems? : List Json → Option Settings
  | [] => ofValues? none none none
  | [locale] => ofValues? (some locale) none none
  | [locale, korean] => ofValues? (some locale) (some korean) none
  | [locale, korean, padding] => ofValues? (some locale) (some korean) (some padding)
  | _ => none

/-- Settings from a JSON value. -/
def ofJson? : Json → Option Settings
  | .object members => ofMembers? members
  | .array items => ofItems? items
  | _ => none

/-- Settings as a JSON value, every one by name. -/
def toJson (settings : Settings) : Json :=
  .object [("locale", .string settings.locale.name), ("korean", .bool settings.korean),
    ("pad", .string settings.padding.name)]

/-! ## Files -/

/-- What is found at a path. -/
inductive FileState
  | absent
  /-- Something that cannot be read, and why. -/
  | refused (reason : String)
  | contents (data : ByteArray)

/-- The text of a file. -/
def FileState.text : FileState → Except NameError String
  | .absent => .error (.unreadable .notFound)
  | .refused reason => .error (.unreadable (.refused reason))
  | .contents data =>
    match String.fromUTF8? data with
    | some text => .ok text
    | none => .error (.unreadable .notUtf8)

/-- The settings in a file. -/
def load (path : String) (file : FileState) : Except NameError Settings := do
  let text ← file.text
  match (Json.parse? text.toList).bind ofJson? with
  | some settings => return settings
  | none => throw (.badSettings path)

end Settings
end SaveNames
