import SaveNames.Command.Run

/-!
# Command lines for the three tasks

Every task can be asked for: this file writes the command line for it, and shows that **the line
is understood as the task it was written for** (`asks_encodeLine`, `asks_decodeLine`,
`asks_fixupLine`), whatever the operand is. An option that is not given leaves no trace in the
line, and an operand that begins with a dash stands behind `--`.

Reading a line goes in two steps, and so does the argument: the arguments of an option become its
part of the line (`items_settingArguments`), and the part sets its field (`collect_setting`).
-/

namespace SaveNames
namespace Command

/-! ## Writing lines -/

/-- The arguments for an option that stands with a value. -/
def settingArguments (opt : Opt) : Option String → List String
  | none => []
  | some value => ["--" ++ opt.name, value]

/-- The arguments for an option without a value. -/
def flagArguments (opt : Opt) (raised : Bool) : List String :=
  if raised then ["--" ++ opt.name] else []

/-- The arguments for an operand, which stands last. -/
def operandArguments (text : String) : List String :=
  if text.toList.head? = some '-' then ["--", text] else [text]

/-- The command line that writes a text. -/
def encodeLine (locale : Option Locale) (len maxChars : Option Nat) (padding : Option Padding)
    (text : String) : List String :=
  Verb.encode.name :: (settingArguments .locale (locale.map Locale.name) ++
    (settingArguments .len (len.map toString) ++
      (settingArguments .maxChars (maxChars.map toString) ++
        (settingArguments .pad (padding.map paddingWord) ++ operandArguments text))))

/-- The command line that reads a dump and refuses a dangling lead byte. -/
def decodeLine (locale : Option Locale) (dump : String) : List String :=
  Verb.decode.name :: (settingArguments .locale (locale.map Locale.name) ++
    (flagArguments .strict true ++ operandArguments dump))

/-- The command line that replaces the decimal points in a dump. -/
def fixupLine (locale : Option Locale) (korean : Bool) (dump : String) : List String :=
  Verb.fixup.name :: (settingArguments .locale (locale.map Locale.name) ++
    (flagArguments .korean korean ++ operandArguments dump))

/-- The command line asks for the task under the locale and the Korean flag, in plain output and
without a settings file. -/
def Asks (line : List String) (locale : Option Locale) (korean : Bool) (task : Task) : Prop :=
  Invocation.parse line = .ok { config := none, locale, korean, json := false, task }

/-! ## Words and their values -/

theorem ofName?_name (locale : Locale) : Locale.ofName? locale.name = some locale := by
  cases locale <;> rfl

theorem padding?_paddingWord (padding : Padding) :
    padding? (paddingWord padding) = some padding := by
  cases padding <;> rfl

theorem toList_toString (number : Nat) : (toString number).toList = Nat.toDigits 10 number :=
  Nat.toList_repr

theorem isDigit_of_mem_toString {number : Nat} {ch : Char} (h : ch ∈ (toString number).toList) :
    ch.isDigit = true := by
  rw [toList_toString] at h
  exact Nat.isDigit_of_mem_toDigits (by decide) (by decide) h

/-- A number below the limit is read from its decimal digits. -/
theorem count?_toString {number : Nat} (h : number < countLimit) :
    count? (toString number) = some number := by
  have hdigits : (toString number).toList.all Char.isDigit = true :=
    List.all_eq_true.mpr fun ch hmem => isDigit_of_mem_toString hmem
  have hempty : (toString number).toList.isEmpty = false := by
    rw [toList_toString]
    exact List.isEmpty_eq_false_iff.mpr Nat.toDigits_ne_nil
  have hvalue : (toString number).toList.foldl
      (fun value digit => 10 * value + (digit.toNat - '0'.toNat)) 0 = number := by
    rw [toList_toString]
    exact Nat.ofDigitChars_ten_toDigits
  have hplus : ∀ rest, (toString number).toList ≠ '+' :: rest := by
    intro rest heq
    have hdigit : '+'.isDigit = true := isDigit_of_mem_toString (heq ▸ List.mem_cons_self)
    exact absurd hdigit (by decide)
  unfold count?
  split
  next heq => exact absurd heq (hplus _)
  next =>
    simp only [hempty, hdigits, hvalue, Bool.not_true, Bool.or_self, if_pos h]
    rfl

/-- An argument that does not begin with a dash is a word. -/
theorem ofString_of_head?_ne {text : String} (h : text.toList.head? ≠ some '-') :
    Argument.ofString text = .word text := by
  unfold Argument.ofString
  split <;> simp_all

theorem isWord_of_head?_ne {text : String} (h : text.toList.head? ≠ some '-') :
    isWord text = true := by
  rw [isWord, ofString_of_head?_ne h]

/-- The word for a count begins with a digit. -/
theorem isWord_toString (number : Nat) : isWord (toString number) = true := by
  apply isWord_of_head?_ne
  intro hhead
  have hdigit : '-'.isDigit = true := isDigit_of_mem_toString (List.mem_of_head? hhead)
  exact absurd hdigit (by decide)

theorem isWord_name (locale : Locale) : isWord locale.name = true := by
  cases locale <;> rfl

theorem isWord_paddingWord (padding : Padding) : isWord (paddingWord padding) = true := by
  cases padding <;> rfl

/-- What every value is written as can be the value of an option, so a given one can. -/
theorem forall_mem_map {α : Type} {write : α → String} (h : ∀ value, isWord (write value) = true)
    {value : Option α} : ∀ word ∈ value.map write, isWord word = true := by
  intro word hmem
  obtain ⟨given, -, rfl⟩ := Option.map_eq_some_iff.mp hmem
  exact h given

/-! ## From arguments to parts -/

/-- Two dashes and a name make an option without an attached value. -/
theorem ofString_option (opt : Opt) :
    Argument.ofString ("--" ++ opt.name) = .long opt.name none := by
  cases opt <;> rfl

/-- A command word opens the scope of the command. -/
theorem items_verb (verb : Verb) (rest : List String) :
    items .main (verb.name :: rest) = .verb verb :: items (.verb verb) rest := by
  cases verb <;> rfl

/-- The names of the options of a scope differ. -/
theorem ofName?_of_mem_accepted {scope : Scope} {opt : Opt} (h : opt ∈ Opt.accepted scope) :
    Opt.ofName? scope opt.name = some opt := by
  rcases scope with _ | verb
  · cases opt <;> first | rfl | simp [Opt.accepted, Opt.general, Opt.special] at h
  · cases verb <;> cases opt <;>
      first | rfl | simp [Opt.accepted, Opt.general, Opt.special] at h

section Options

variable {scope : Scope} (opt : Opt) (hopt : opt ∈ Opt.accepted scope)
include hopt

/-- An option that is written with its value is one part, and nothing if it is not given. -/
theorem items_settingArguments (htakes : opt.takesValue = true) {value : Option String}
    (hword : ∀ word ∈ value, isWord word = true) (rest : List String) :
    items scope (settingArguments opt value ++ rest) =
      (value.map (Item.setting opt)).toList ++ items scope rest := by
  cases value with
  | none => rfl
  | some word =>
    rw [settingArguments, List.cons_append, items, ofString_option]
    simp only [ofName?_of_mem_accepted hopt, htakes, hword word rfl, List.cons_append,
      List.nil_append, if_pos]
    rfl

/-- A flag that is raised is one part. -/
theorem items_flagArguments (htakes : opt.takesValue = false) (raised : Bool)
    (rest : List String) :
    items scope (flagArguments opt raised ++ rest) =
      (if raised then [Item.flag opt] else []) ++ items scope rest := by
  cases raised with
  | false => rfl
  | true =>
    rw [flagArguments, if_pos rfl, List.cons_append, items, ofString_option]
    simp only [ofName?_of_mem_accepted hopt, htakes, List.nil_append]
    rfl

end Options

/-- An operand is one part, also where two dashes have to stand in front of it. -/
theorem items_operandArguments (verb : Verb) (text : String) :
    items (.verb verb) (operandArguments text) = [.operand text] := by
  rw [operandArguments]
  split
  · rfl
  · next hhead =>
    rw [items, ofString_of_head?_ne hhead]
    rfl

/-! ## From parts to an invocation -/

section Collect

variable {front : Given} {verb : Verb}

/-- A part that may stand behind the command word sets what is given there. -/
theorem collect_cons {given given' : Given} {item : Item} (h : given.add item = .ok given')
    (rest : List Item) :
    (item :: rest).foldlM Collected.add { front, behind := some (verb, given) } =
      rest.foldlM Collected.add { front, behind := some (verb, given') } := by
  have hadd : Collected.add { front, behind := some (verb, given) } item =
      .ok { front, behind := some (verb, given') } := by
    show (do return { front, behind := some (verb, ← given.add item) } : Except Stop Collected) = _
    rw [h]
    rfl
  rw [List.foldlM_cons, hadd]
  rfl

/-- The first value of an option is taken, if it is valid. -/
theorem once_none {α : Type} {opt : Opt} {read : String → Option α} {word : String} {value : α}
    (h : read word = some value) : once opt none read word = .ok (some value) := by
  rw [once, h]
  rfl

theorem addSetting_locale {given : Given} (h : given.locale = none) (locale : Locale) :
    given.addSetting .locale locale.name = .ok { given with locale := some locale } := by
  rw [Given.addSetting, h, once_none (ofName?_name locale)]
  rfl

theorem addSetting_len {given : Given} (h : given.len = none) {len : Nat}
    (hlen : len < countLimit) :
    given.addSetting .len (toString len) = .ok { given with len := some len } := by
  rw [Given.addSetting, h, once_none (count?_toString hlen)]
  rfl

theorem addSetting_maxChars {given : Given} (h : given.maxChars = none) {maxChars : Nat}
    (hcap : maxChars < countLimit) :
    given.addSetting .maxChars (toString maxChars) =
      .ok { given with maxChars := some maxChars } := by
  rw [Given.addSetting, h, once_none (count?_toString hcap)]
  rfl

theorem addSetting_pad {given : Given} (h : given.padding = none) (padding : Padding) :
    given.addSetting .pad (paddingWord padding) = .ok { given with padding := some padding } := by
  rw [Given.addSetting, h, once_none (padding?_paddingWord padding)]
  rfl

/-- An option that is given sets its field, and one that is not leaves the field as it was. -/
theorem collect_setting {α : Type} (opt : Opt) (write : α → String) (set : Option α → Given)
    (value : Option α)
    (hset : ∀ given ∈ value, (set none).addSetting opt (write given) = .ok (set (some given)))
    (rest : List Item) :
    (((value.map write).map (Item.setting opt)).toList ++ rest).foldlM Collected.add
        { front, behind := some (verb, set none) } =
      rest.foldlM Collected.add { front, behind := some (verb, set value) } := by
  cases value with
  | none => rfl
  | some given =>
    have hadd : (set none).add (.setting opt (write given)) = .ok (set (some given)) :=
      hset given rfl
    exact collect_cons hadd rest

end Collect

/-- The command word opens its scope. -/
theorem collect_verb (verb : Verb) (rest : List Item) :
    (.verb verb :: rest).foldlM Collected.add {} =
      rest.foldlM Collected.add { behind := some (verb, {}) } := by
  rw [List.foldlM_cons]
  rfl

/-- From a line that encodes, everything that was written into it is collected. -/
theorem collect_encodeLine (locale : Option Locale) {len maxChars : Option Nat}
    (padding : Option Padding) (text : String) (hlen : ∀ count ∈ len, count < countLimit)
    (hcap : ∀ count ∈ maxChars, count < countLimit) :
    (items .main (encodeLine locale len maxChars padding text)).foldlM Collected.add {} =
      .ok { behind := some (.encode, { locale, len, maxChars, padding, operand := some text }) } := by
  rw [encodeLine, items_verb,
    items_settingArguments .locale (by decide) rfl (forall_mem_map isWord_name),
    items_settingArguments .len (by decide) rfl (forall_mem_map isWord_toString),
    items_settingArguments .maxChars (by decide) rfl (forall_mem_map isWord_toString),
    items_settingArguments .pad (by decide) rfl (forall_mem_map isWord_paddingWord),
    items_operandArguments, collect_verb]
  calc
    _ = List.foldlM Collected.add { behind := some (.encode, { locale }) } _ :=
      collect_setting .locale Locale.name (fun locale => { locale }) locale
        (fun given _ => addSetting_locale rfl given) _
    _ = List.foldlM Collected.add { behind := some (.encode, { locale, len }) } _ :=
      collect_setting .len toString (fun len => { locale, len }) len
        (fun given hmem => addSetting_len rfl (hlen given hmem)) _
    _ = List.foldlM Collected.add { behind := some (.encode, { locale, len, maxChars }) } _ :=
      collect_setting .maxChars toString (fun maxChars => { locale, len, maxChars }) maxChars
        (fun given hmem => addSetting_maxChars rfl (hcap given hmem)) _
    _ = List.foldlM Collected.add { behind := some (.encode, { locale, len, maxChars, padding }) }
        [.operand text] :=
      collect_setting .pad paddingWord (fun padding => { locale, len, maxChars, padding }) padding
        (fun given _ => addSetting_pad rfl given) _
    _ = _ := collect_cons rfl []

/-- From a line that decodes, everything that was written into it is collected. -/
theorem collect_decodeLine (locale : Option Locale) (dump : String) :
    (items .main (decodeLine locale dump)).foldlM Collected.add {} =
      .ok { behind := some (.decode, { locale, strict := true, operand := some dump }) } := by
  rw [decodeLine, items_verb,
    items_settingArguments .locale (by decide) rfl (forall_mem_map isWord_name),
    items_flagArguments .strict (by decide) rfl, items_operandArguments, collect_verb]
  calc
    _ = List.foldlM Collected.add { behind := some (.decode, { locale }) }
        [.flag .strict, .operand dump] :=
      collect_setting .locale Locale.name (fun locale => { locale }) locale
        (fun given _ => addSetting_locale rfl given) _
    _ = List.foldlM Collected.add { behind := some (.decode, { locale, strict := true }) }
        [.operand dump] := collect_cons rfl _
    _ = _ := collect_cons rfl []

/-- From a line that replaces points, everything that was written into it is collected. -/
theorem collect_fixupLine (locale : Option Locale) (korean : Bool) (dump : String) :
    (items .main (fixupLine locale korean dump)).foldlM Collected.add {} =
      .ok { behind := some (.fixup, { locale, korean, operand := some dump }) } := by
  rw [fixupLine, items_verb,
    items_settingArguments .locale (by decide) rfl (forall_mem_map isWord_name),
    items_flagArguments .korean (by decide) rfl, items_operandArguments, collect_verb]
  calc
    _ = List.foldlM Collected.add { behind := some (.fixup, { locale }) } _ :=
      collect_setting .locale Locale.name (fun locale => { locale }) locale
        (fun given _ => addSetting_locale rfl given) _
    _ = List.foldlM Collected.add { behind := some (.fixup, { locale, korean }) }
        [.operand dump] := by
      cases korean with
      | false => rfl
      | true => exact collect_cons rfl _
    _ = _ := collect_cons rfl []

/-! ## What the lines ask for -/

/-- A line whose options all stand behind the command word asks for the command's task. -/
theorem asks_of_collect {line : List String} {verb : Verb} {given : Given} {operand : String}
    (h : (items .main line).foldlM Collected.add {} = .ok { behind := some (verb, given) })
    (hoperand : given.operand = some operand) (hconfig : given.config = none)
    (hjson : given.json = false) :
    Asks line given.locale given.korean (Task.ofGiven verb operand given) := by
  have hfinish : Collected.finish { behind := some (verb, given) } =
      .ok { config := none, locale := given.locale, korean := given.korean, json := false,
            task := Task.ofGiven verb operand given } := by
    simp only [Collected.finish, hoperand, hconfig, hjson, Option.orElse_eq_orElse,
      Option.orElse_eq_or, Option.or_none, Bool.or_false]
  rw [Asks, Invocation.parse, h]
  exact hfinish

/-- Asking for a text to be written; the buffer's length is the cap unless one is given. -/
theorem asks_encodeLine (locale : Option Locale) {len maxChars : Option Nat}
    (padding : Option Padding) (text : String) (hlen : ∀ count ∈ len, count < countLimit)
    (hcap : ∀ count ∈ maxChars, count < countLimit) :
    Asks (encodeLine locale len maxChars padding text) locale false
      (.encode text (len.getD defaultLength) (maxChars.getD (len.getD defaultLength)) padding) :=
  asks_of_collect (collect_encodeLine locale padding text hlen hcap) rfl rfl rfl

/-- There is a line that asks to decode any operand. -/
theorem asks_decodeLine (locale : Option Locale) (dump : String) :
    Asks (decodeLine locale dump) locale false (.decode dump true) :=
  asks_of_collect (collect_decodeLine locale dump) rfl rfl rfl

/-- There is a line that asks to replace the points of any operand. -/
theorem asks_fixupLine (locale : Option Locale) (korean : Bool) (dump : String) :
    Asks (fixupLine locale korean dump) locale korean (.fixup dump) :=
  asks_of_collect (collect_fixupLine locale korean dump) rfl rfl rfl

end Command
end SaveNames
