import SaveNames.Proofs.InPlace
import SaveNames.Proofs.StoredNames.StyleHistory

/-!
# Operations with every access checked

The operations on a record, made of the checked accesses of buffers. A record asks two more things
of them: that a buffer which is stored is as long as its field, and that the trash is cut off at a
position inside of the buffer. One call never faults, whatever the buffers hold
(`InPlace.run_eq`), and so no history of calls does (`InPlace.runAll_eq`).
-/

namespace SaveNames

namespace InPlace

/-! ## Fields -/

/-- Puts a buffer into a field, which has to be as long. -/
def store (stored : StoredNames) (field : Field) (bytes : Bytes) : Except Fault StoredNames :=
  if h : bytes.length = (stored.buffer field).length then .ok (stored.withBuffer field bytes h)
  else .error (.length bytes.length (stored.buffer field).length)

/-- Writes a text into a field. -/
def write (stored : StoredNames) (field : Field) (padding : Padding) (maxChars : Nat)
    (text : Text) : Except Fault (StoredNames × Outcome) := do
  let (bytes, outcome) ← encode stored.locale padding maxChars text (stored.buffer field)
  return (← store stored field bytes, outcome)

/-- Replaces the decimal points of a field's name. -/
def replacePoints (stored : StoredNames) (field : Field) : Except Fault (StoredNames × Nat) := do
  let (bytes, count) ← replaceDecimalPoints stored.locale stored.korean (stored.buffer field)
  return (← store stored field bytes, count)

/-- Puts raw bytes over those of a field. -/
def poke (stored : StoredNames) (field : Field) (offset : Nat) (bytes : Bytes) :
    Except Fault (StoredNames × Nat) := do
  let (bytes, count) := overwrite (stored.buffer field) offset bytes
  return (← store stored field bytes, count)

/-! ## Names -/

/-- Writes a name into a field the way its game would: the length of the buffer is checked, the
trash is sliced off, and its zeros decide the padding. -/
def edit (stored : StoredNames) (field : Field) (text : Text) :
    Except Fault (StoredNames × Outcome) := do
  let buffer := stored.buffer field
  if buffer.length ≠ stored.layout.length field then
    throw (.length buffer.length (stored.layout.length field))
  let trash ← sliceFrom buffer (← trashStart stored.locale buffer)
  let padding := if trash.contains 0 then .zero else .fixed
  write stored field padding (stored.layout.maxChars field) text

/-- Whether the setter of a field finds the name there already. A nickname that is marked as one
is not looked at. -/
def alreadyShows (stored : StoredNames) (field : Field) (text : Text) : Except Fault Bool :=
  if field = .nickname ∧ stored.nicknamed = true then .ok false
  else return decide ((← decode stored.locale (stored.buffer field)) = text)

/-- The setter of a field. -/
def setName (stored : StoredNames) (field : Field) (text : Text) :
    Except Fault (StoredNames × Option Outcome) := do
  if ← alreadyShows stored field text then return (stored, none)
  else
    let (stored, outcome) ← edit stored field text
    return (stored, some outcome)

/-- Takes the nickname away, for the default name of the species. -/
def clearNickname (stored : StoredNames) (names : SpeciesNames) (language : Language) :
    Except Fault (StoredNames × Outcome) := do
  let name := names stored.species language stored.generation
  let (stored, outcome) ← write stored .nickname .fixed stored.nickname.length name
  let (stored, _) ← replacePoints stored .nickname
  return (stored.setNicknamed false, outcome)

/-- Runs one operation. -/
def run (names : SpeciesNames) (stored : StoredNames) :
    Operation → Except Fault (StoredNames × Reply)
  | .setNickname text => (·.map id Reply.ofSetter) <$> setName stored .nickname text
  | .setTrainerName text => (·.map id Reply.ofSetter) <$> setName stored .trainer text
  | .clearNickname language => (·.map id Reply.wrote) <$> clearNickname stored names language
  | .setNicknamed nicknamed => .ok (stored.setNicknamed nicknamed, .done)
  | .setSpecies species => .ok (stored.setSpecies species, .done)
  | .setKorean korean => .ok (stored.setKorean korean, .done)
  | .poke field offset bytes => (·.map id Reply.count) <$> poke stored field offset bytes
  | .write field padding maxChars text =>
    (·.map id Reply.wrote) <$> write stored field padding maxChars text
  | .replacePoints field => (·.map id Reply.count) <$> replacePoints stored field

/-- The record after a history of calls. -/
def runAll (stored : StoredNames) (calls : List Call) : Except Fault StoredNames :=
  calls.foldlM (fun stored call => return (← run call.names stored call.operation).1) stored

/-! ## Nothing faults -/

variable (stored : StoredNames) (field : Field)

theorem store_eq (bytes : Bytes) (h : bytes.length = (stored.buffer field).length) :
    store stored field bytes = .ok (stored.withBuffer field bytes h) := dif_pos h

/-- Writing into a field in place never faults: the bytes go where the rules say. -/
theorem write_eq (padding : Padding) (maxChars : Nat) (text : Text) :
    write stored field padding maxChars text = .ok (stored.write field padding maxChars text) := by
  have hlength := length_encode stored.locale padding maxChars text (stored.buffer field)
  rw [write, encode_eq]
  show (store stored field (SaveNames.encode ..).1 >>= _) = _
  rw [store_eq stored field _ hlength]
  rfl

/-- Replacing points in a field in place never faults: the bytes go where the rules say. -/
theorem replacePoints_eq :
    replacePoints stored field = .ok (stored.replacePoints field) := by
  have hlength := length_replaceDecimalPoints stored.locale stored.korean (stored.buffer field)
  rw [replacePoints, replaceDecimalPoints_eq]
  show (store stored field (SaveNames.replaceDecimalPoints ..).1 >>= _) = _
  rw [store_eq stored field _ hlength]
  rfl

/-- Raw bytes are put into a field in place without a byte outside its buffer. -/
theorem poke_eq (offset : Nat) (bytes : Bytes) :
    poke stored field offset bytes = .ok (stored.poke field offset bytes) := by
  have hlength := length_overwrite (stored.buffer field) offset bytes
  show (store stored field (overwrite ..).1 >>= _) = _
  rw [store_eq stored field _ hlength]
  rfl

/-- The slice from the start of the trash on is never out of bounds: it is the trash. -/
theorem sliceFrom_trashStart (locale : Locale) (data : Bytes) :
    sliceFrom data (SaveNames.trashStart locale data) = .ok (trash locale data) :=
  if_pos (trashStart_le locale data)

/-- An edit in place reads the style and writes the name without a byte outside the buffer. -/
theorem edit_eq (text : Text) : edit stored field text = .ok (stored.edit field text) := by
  have hlength : ¬(stored.buffer field).length ≠ stored.layout.length field :=
    not_not_intro (stored.length_buffer field)
  simp only [edit, if_neg hlength, trashStart_eq]
  show (sliceFrom _ _ >>= _) = _
  rw [sliceFrom_trashStart]
  exact write_eq stored field _ _ text

theorem alreadyShows_eq (text : Text) :
    alreadyShows stored field text = .ok (stored.alreadyShows field text) := by
  rw [alreadyShows, decode_eq]
  cases field with
  | nickname =>
    rw [StoredNames.alreadyShows]
    cases stored.nicknamed <;> rfl
  | trainer => rfl

theorem setName_eq (text : Text) : setName stored field text = .ok (stored.setName field text) := by
  rw [setName, alreadyShows_eq, edit_eq, StoredNames.setName_eq]
  cases stored.alreadyShows field text <;> rfl

/-- Clearing in place writes the default name and replaces its points without a byte outside the
buffer. -/
theorem clearNickname_eq (names : SpeciesNames) (language : Language) :
    clearNickname stored names language = .ok (stored.clearNickname names language) := by
  rw [clearNickname, write_eq]
  show (replacePoints _ .nickname >>= _) = _
  rw [replacePoints_eq]
  rfl

/-- One operation never faults. -/
theorem run_eq (names : SpeciesNames) (operation : Operation) :
    run names stored operation = .ok (operation.run names stored) := by
  cases operation with
  | setNickname text => rw [run, setName_eq]; rfl
  | setTrainerName text => rw [run, setName_eq]; rfl
  | clearNickname language => rw [run, clearNickname_eq]; rfl
  | setNicknamed nicknamed => rfl
  | setSpecies species => rfl
  | setKorean korean => rfl
  | poke field offset bytes => rw [run, poke_eq]; rfl
  | write field padding maxChars text => rw [run, write_eq]; rfl
  | replacePoints field => rw [run, replacePoints_eq]; rfl

/-- No history faults. -/
theorem runAll_eq (calls : List Call) :
    runAll stored calls = .ok (Call.runAll stored calls) := by
  induction calls generalizing stored with
  | nil => rfl
  | cons call calls ih =>
    rw [runAll, List.foldlM_cons, run_eq]
    exact ih (call.run stored).1

/-- **No access falls outside of a table, a buffer or a field**, whatever the bytes are: the keys
that are looked up lie inside of their sets, and every operation on buffers and on records goes
through and gives what the rules say. -/
theorem no_access_outside (locale : Locale) (korean : Bool) (padding : Padding) (maxChars : Nat)
    (text : Text) (data : Bytes) (stored : StoredNames) (field : Field) (calls : List Call) :
    locale.singleCharset.size = 256 ∧
    (∀ offset unit, (offset, unit) ∈ unitsFrom locale data 0 →
      offset + unit.width ≤ data.length ∧
        (∀ charset ∈ unit.charset? locale, unit.value < charset.size) ∧
        resolve locale unit = .ok (unit.char? locale)) ∧
    decode locale data = .ok (SaveNames.decode locale data) ∧
    decodeChecked locale data = .ok (SaveNames.decodeChecked locale data) ∧
    trashStart locale data = .ok (SaveNames.trashStart locale data) ∧
    sliceFrom data (SaveNames.trashStart locale data) = .ok (trash locale data) ∧
    replaceDecimalPoints locale korean data =
      .ok (SaveNames.replaceDecimalPoints locale korean data) ∧
    encode locale padding maxChars text data =
      .ok (SaveNames.encode locale padding maxChars text data) ∧
    edit stored field text = .ok (stored.edit field text) ∧
    runAll stored calls = .ok (Call.runAll stored calls) := by
  refine ⟨Charset.size_singleCharset locale, fun _ _ h => inside_of_mem_unitsFrom h,
    decode_eq locale data, decodeChecked_eq locale data, trashStart_eq locale data,
    sliceFrom_trashStart locale data, replaceDecimalPoints_eq locale korean data,
    encode_eq locale padding maxChars text data, edit_eq stored field text, runAll_eq stored calls⟩

end InPlace

end SaveNames
