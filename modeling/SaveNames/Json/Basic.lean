/-!
# JSON values

Settings files and reports are JSON. An object keeps its members in the order in which they
are written, repeated names included, because a reader of settings has to see a repetition in
order to refuse it. A number is kept as it is spelled.
-/

namespace SaveNames

/-- A JSON value. -/
inductive Json
  | null
  | bool (value : Bool)
  | number (spelling : String)
  | string (value : String)
  | array (items : List Json)
  | object (members : List (String × Json))
deriving Repr, Inhabited

/-- A count as a JSON number. -/
def Json.count (n : Nat) : Json := .number (toString n)

end SaveNames
