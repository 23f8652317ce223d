import SaveNames.StoredNames.Basic

/-!
# Operations on stored names

Everything that can be done to the names of a creature as one data type, so that a history is
a list. Running an operation gives the new record and a reply.
-/

namespace SaveNames

/-- One change to the names of a creature. -/
inductive Operation
  | setNickname (text : Text)
  | setTrainerName (text : Text)
  | clearNickname (language : Language)
  | setNicknamed (nicknamed : Bool)
  | setSpecies (species : UInt16)
  | setKorean (korean : Bool)
  | poke (field : Field) (offset : Nat) (bytes : Bytes)
  | write (field : Field) (padding : Padding) (maxChars : Nat) (text : Text)
  | replacePoints (field : Field)
deriving DecidableEq, Repr

/-- What an operation reports. -/
inductive Reply
  /-- The operation has nothing to report. -/
  | done
  /-- The field already showed the name, so nothing was written. -/
  | unchanged
  /-- A text was written. -/
  | wrote (outcome : Outcome)
  /-- So many bytes were put or replaced. -/
  | count (bytes : Nat)
deriving DecidableEq, Repr

/-- The reply of a setter. -/
def Reply.ofSetter : Option Outcome → Reply
  | none => .unchanged
  | some outcome => .wrote outcome

/-- Runs one operation. -/
def Operation.run (names : SpeciesNames) (stored : StoredNames) : Operation → StoredNames × Reply
  | .setNickname text => (stored.setNickname text).map id Reply.ofSetter
  | .setTrainerName text => (stored.setTrainerName text).map id Reply.ofSetter
  | .clearNickname language => (stored.clearNickname names language).map id Reply.wrote
  | .setNicknamed nicknamed => (stored.setNicknamed nicknamed, .done)
  | .setSpecies species => (stored.setSpecies species, .done)
  | .setKorean korean => (stored.setKorean korean, .done)
  | .poke field offset bytes => (stored.poke field offset bytes).map id Reply.count
  | .write field padding maxChars text =>
    (stored.write field padding maxChars text).map id Reply.wrote
  | .replacePoints field => (stored.replacePoints field).map id Reply.count

/-- Runs a history of operations. The replies come in the order of the operations. -/
def Operation.runAll (names : SpeciesNames) (stored : StoredNames) :
    List Operation → StoredNames × List Reply
  | [] => (stored, [])
  | operation :: rest =>
    let first := operation.run names stored
    let later := runAll names first.1 rest
    (later.1, first.2 :: later.2)

end SaveNames
