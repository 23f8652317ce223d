import SaveNames.Command.Invocation

/-!
# What the parts of a line give

A line that makes sense is taken part by part, in front of the command word and behind it, and the
two sums are put together at its end. Seen from the whole line this comes to a simple rule
(`parts_of_parse`): there is one command and one operand, a flag is raised if it stands anywhere,
and **of two settings of an option the last one counts**.

The sum of a scope is characterised by the parts that went into it (`Given.Sums`), which one more
part keeps up (`Given.Sums.step`); the options of one command cannot stand in front of the command
word (`Within.opt_mem_accepted`).
-/

namespace SaveNames
namespace Command

/-! ## Parts of a kind -/

namespace Item

/-- The command of a command word. -/
def verb? : Item → Option Verb
  | .verb word => some word
  | _ => none

/-- The text of an operand. -/
def operand? : Item → Option String
  | .operand text => some text
  | _ => none

/-- The option of a flag or a setting. -/
def opt? : Item → Option Opt
  | .flag opt => some opt
  | .setting opt _ => some opt
  | _ => none

/-- The value that a setting of the option gives. -/
def value? {α : Type} (opt : Opt) (read : String → Option α) : Item → Option α
  | .setting opt' word => if opt' = opt then read word else none
  | _ => none

end Item

/-- The commands among the parts. -/
def verbs (parts : List Item) : List Verb := parts.filterMap Item.verb?

/-- The operands among the parts. -/
def operands (parts : List Item) : List String := parts.filterMap Item.operand?

/-- The values that the parts give for an option. -/
def values {α : Type} (opt : Opt) (read : String → Option α) (parts : List Item) : List α :=
  parts.filterMap (Item.value? opt read)

/-- The value that counts. -/
def lastValue? {α : Type} (opt : Opt) (read : String → Option α) (parts : List Item) : Option α :=
  (values opt read parts).getLast?

/-- Whether a flag stands among the parts. -/
def hasFlag (opt : Opt) (parts : List Item) : Bool := decide (Item.flag opt ∈ parts)

/-! ## One part of a scope -/

/-- What one part changes, and what must not have been given before it. -/
inductive Given.Step (given : Given) : Item → Given → Prop
  | korean (hnew : given.korean = false) : Step given (.flag .korean) { given with korean := true }
  | json (hnew : given.json = false) : Step given (.flag .json) { given with json := true }
  | strict (hnew : given.strict = false) : Step given (.flag .strict) { given with strict := true }
  | config {word path : String} (hnew : given.config = none) (hread : path? word = some path) :
    Step given (.setting .config word) { given with config := some path }
  | locale {word : String} {locale : Locale} (hnew : given.locale = none)
    (hread : Locale.ofName? word = some locale) :
    Step given (.setting .locale word) { given with locale := some locale }
  | len {word : String} {len : Nat} (hnew : given.len = none) (hread : count? word = some len) :
    Step given (.setting .len word) { given with len := some len }
  | maxChars {word : String} {maxChars : Nat} (hnew : given.maxChars = none)
    (hread : count? word = some maxChars) :
    Step given (.setting .maxChars word) { given with maxChars := some maxChars }
  | pad {word : String} {padding : Padding} (hnew : given.padding = none)
    (hread : padding? word = some padding) :
    Step given (.setting .pad word) { given with padding := some padding }
  | operand {text : String} (hnew : given.operand = none) :
    Step given (.operand text) { given with operand := some text }

/-- A step that succeeds in a computation that succeeds. -/
theorem bind_eq_ok {α β : Type} {first : Except Stop α} {next : α → Except Stop β} {result : β}
    (h : first >>= next = .ok result) : ∃ value, first = .ok value ∧ next value = .ok result := by
  cases first with
  | error stop => cases h
  | ok value => exact ⟨value, rfl, h⟩

/-- An option that is taken had no value before and gets a valid one. -/
theorem of_once_eq_ok {α : Type} {opt : Opt} {old new : Option α} {read : String → Option α}
    {word : String} (h : once opt old read word = .ok new) :
    old = none ∧ ∃ value, read word = some value ∧ new = some value := by
  cases old with
  | some value => cases h
  | none =>
    cases hread : read word with
    | none => simp [once, hread] at h
    | some value =>
      have hnew : some value = new := by simpa [once, hread] using h
      exact ⟨rfl, value, rfl, hnew.symm⟩

/-- A flag that is taken was down before and is up now. -/
theorem of_raised_eq_ok {opt : Opt} {old new : Bool} (h : raised opt old = .ok new) :
    old = false ∧ new = true := by
  cases old with
  | true => cases h
  | false => exact ⟨rfl, (Except.ok.inj h).symm⟩

variable {given given' : Given} {item : Item}

/-- Taking a flag changes what the flag is about and nothing else. -/
theorem Given.step_of_addFlag {opt : Opt} (h : given.addFlag opt = .ok given') :
    given.Step (.flag opt) given' := by
  cases opt <;> try cases h
  all_goals
    obtain ⟨flag, hraised, hgiven⟩ := bind_eq_ok h
    obtain ⟨hnew, rfl⟩ := of_raised_eq_ok hraised
    cases hgiven
  · exact .korean hnew
  · exact .json hnew
  · exact .strict hnew

/-- Taking an option with its value changes what the option is about and nothing else. -/
theorem Given.step_of_addSetting {opt : Opt} {word : String}
    (h : given.addSetting opt word = .ok given') : given.Step (.setting opt word) given' := by
  cases opt <;> try cases h
  all_goals
    obtain ⟨new, honce, hgiven⟩ := bind_eq_ok h
    obtain ⟨hnew, value, hread, rfl⟩ := of_once_eq_ok honce
    cases hgiven
  · exact .config hnew hread
  · exact .locale hnew hread
  · exact .len hnew hread
  · exact .maxChars hnew hread
  · exact .pad hnew hread

/-- Taking any part changes what the part is about and nothing else. -/
theorem Given.step_of_add (h : given.add item = .ok given') : given.Step item given' := by
  cases item with
  | flag opt => exact step_of_addFlag h
  | setting opt word => exact step_of_addSetting h
  | operand text =>
    cases hnew : given.operand with
    | some old => simp [Given.add, Given.addOperand, hnew] at h
    | none =>
      have hgiven : { given with operand := some text } = given' := by
        simpa [Given.add, Given.addOperand, hnew] using h
      rw [← hgiven]
      exact .operand hnew
  | verb verb => cases h
  | fault error => cases h

/-! ## The sum of a scope -/

/-- What is given in a scope is what its parts give, and no option is given twice. -/
structure Given.Sums (given : Given) (parts : List Item) : Prop where
  config : values .config path? parts = given.config.toList
  locale : values .locale Locale.ofName? parts = given.locale.toList
  korean : hasFlag .korean parts = given.korean
  json : hasFlag .json parts = given.json
  strict : hasFlag .strict parts = given.strict
  len : values .len count? parts = given.len.toList
  maxChars : values .maxChars count? parts = given.maxChars.toList
  padding : values .pad padding? parts = given.padding.toList
  operand : operands parts = given.operand.toList
  verb : verbs parts = []

@[simp] theorem verbs_nil : verbs [] = [] := rfl

@[simp] theorem operands_nil : operands [] = [] := rfl

@[simp] theorem values_nil {α : Type} (opt : Opt) (read : String → Option α) :
    values opt read [] = [] := rfl

@[simp] theorem hasFlag_nil (opt : Opt) : hasFlag opt [] = false := rfl

section Append

variable (parts parts' : List Item) (item : Item)

@[simp] theorem verbs_append : verbs (parts ++ parts') = verbs parts ++ verbs parts' :=
  List.filterMap_append

@[simp] theorem operands_append : operands (parts ++ parts') = operands parts ++ operands parts' :=
  List.filterMap_append

@[simp] theorem values_append {α : Type} (opt : Opt) (read : String → Option α) :
    values opt read (parts ++ parts') = values opt read parts ++ values opt read parts' :=
  List.filterMap_append

@[simp] theorem hasFlag_append (opt : Opt) :
    hasFlag opt (parts ++ parts') = (hasFlag opt parts || hasFlag opt parts') := by
  simp [hasFlag]

theorem verbs_cons : verbs (item :: parts) = item.verb?.toList ++ verbs parts := by
  rw [verbs, List.filterMap_cons]
  cases item.verb? <;> rfl

theorem operands_cons : operands (item :: parts) = item.operand?.toList ++ operands parts := by
  rw [operands, List.filterMap_cons]
  cases item.operand? <;> rfl

theorem values_cons {α : Type} (opt : Opt) (read : String → Option α) :
    values opt read (item :: parts) = (item.value? opt read).toList ++ values opt read parts := by
  rw [values, List.filterMap_cons]
  cases item.value? opt read <;> rfl

theorem hasFlag_cons (opt : Opt) :
    hasFlag opt (item :: parts) = (decide (item = .flag opt) || hasFlag opt parts) := by
  simp [hasFlag, eq_comm]

end Append

theorem Given.sums_nil : ({} : Given).Sums [] := ⟨rfl, rfl, rfl, rfl, rfl, rfl, rfl, rfl, rfl, rfl⟩

/-- What a step makes of a sum is the sum with the part of the step. -/
theorem Given.Sums.step {parts : List Item} (h : given.Sums parts)
    (hstep : given.Step item given') : given'.Sums (parts ++ [item]) := by
  obtain ⟨hconfig, hlocale, hkorean, hjson, hstrict, hlen, hmaxChars, hpadding, hoperand, hverb⟩ := h
  -- the part changes its own entry, which was empty, and no other entry sees it
  cases hstep <;>
    constructor <;>
      simp_all [verbs_cons, operands_cons, values_cons, hasFlag_cons, Item.value?, Item.operand?,
        Item.verb?]

/-! ## The two scopes of a line -/

/-- What has been taken is what the parts so far give: those in front of the command word, where
no operand stands, and those behind it. -/
inductive Collected.Covers : Collected → List Item → Prop
  | front {front : Given} {parts : List Item} (hfront : front.Sums parts)
    (hoperands : operands parts = []) : Covers { front } parts
  | behind {front given : Given} {verb : Verb} {parts parts' : List Item}
    (hfront : front.Sums parts) (hoperands : operands parts = []) (hbehind : given.Sums parts') :
    Covers { front, behind := some (verb, given) } (parts ++ .verb verb :: parts')

/-- What covers the parts so far covers one more when the part is taken. -/
theorem Collected.Covers.add {collected collected' : Collected} {parts : List Item} {item : Item}
    (h : collected.Covers parts) (hadd : collected.add item = .ok collected') :
    collected'.Covers (parts ++ [item]) := by
  cases h with
  | @behind front given verb parts parts' hfront hoperands hbehind =>
    obtain ⟨given', hgiven, hcollected⟩ := bind_eq_ok hadd
    cases hcollected
    rw [List.append_assoc, List.cons_append]
    exact .behind hfront hoperands (hbehind.step (Given.step_of_add hgiven))
  | @front front parts hfront hoperands =>
    cases item with
    | verb verb =>
      cases hadd
      exact .behind hfront hoperands Given.sums_nil
    | operand text => cases hadd
    | flag opt =>
      obtain ⟨front', hfront', hcollected⟩ := bind_eq_ok hadd
      cases hcollected
      refine .front (hfront.step (Given.step_of_add hfront')) ?_
      simp [hoperands, operands_cons, Item.operand?]
    | setting opt word =>
      obtain ⟨front', hfront', hcollected⟩ := bind_eq_ok hadd
      cases hcollected
      refine .front (hfront.step (Given.step_of_add hfront')) ?_
      simp [hoperands, operands_cons, Item.operand?]
    | fault error => cases hadd

/-- Taking all parts of a line. -/
theorem Collected.Covers.foldlM {collected collected' : Collected} {parts : List Item}
    (h : collected.Covers parts) {later : List Item}
    (hfold : later.foldlM Collected.add collected = .ok collected') :
    collected'.Covers (parts ++ later) := by
  induction later generalizing collected parts with
  | nil =>
    cases hfold
    rw [List.append_nil]
    exact h
  | cons item later ih =>
    rw [List.foldlM_cons] at hfold
    obtain ⟨collected'', hadd, hrest⟩ := bind_eq_ok hfold
    have hcovers := ih (h.add hadd) hrest
    rw [List.append_assoc] at hcovers
    exact hcovers

/-! ## Options of one command -/

/-- Up to the command word, the options are those of the scope. -/
inductive Within (scope : Scope) : List Item → Prop
  | nil : Within scope []
  | verb (verb : Verb) (rest : List Item) : Within scope (.verb verb :: rest)
  | opt {item : Item} {opt : Opt} {rest : List Item} (hopt : item.opt? = some opt)
    (hmem : opt ∈ Opt.accepted scope) (hrest : Within scope rest) : Within scope (item :: rest)
  | other {item : Item} {rest : List Item} (hopt : item.opt? = none)
    (hrest : Within scope rest) : Within scope (item :: rest)

/-- A name stands only for an option that the scope accepts. -/
theorem mem_accepted_of_ofName? {scope : Scope} {name : String} {opt : Opt}
    (h : Opt.ofName? scope name = some opt) : opt ∈ Opt.accepted scope :=
  List.mem_of_find?_eq_some h

/-- A letter stands only for an option that the scope accepts. -/
theorem mem_accepted_of_ofLetter? {scope : Scope} {letters : Text} {opt : Opt}
    (h : letters.head?.bind (Opt.ofLetter? scope) = some opt) : opt ∈ Opt.accepted scope := by
  obtain ⟨letter, -, hletter⟩ := Option.bind_eq_some_iff.mp h
  exact List.mem_of_find?_eq_some hletter

/-- Behind two dashes there are only operands. -/
theorem within_map_operand (scope : Scope) (arguments : List String) :
    Within scope (arguments.map Item.operand) := by
  induction arguments with
  | nil => exact .nil
  | cons argument arguments ih => exact .other rfl ih

/-- A request for help belongs to every scope. -/
theorem within_helpItem (scope : Scope) (arguments : List String) :
    Within scope [helpItem arguments] := by
  have hmem : Opt.help ∈ Opt.accepted scope := by simp [Opt.accepted, Opt.general]
  unfold helpItem
  split
  · exact .opt rfl hmem .nil
  · split
    · exact .opt rfl hmem .nil
    · exact .other rfl .nil
  · exact .other rfl .nil

/-- The parts of a line belong to the scopes that they stand in. -/
theorem within_items (scope : Scope) (arguments : List String) :
    Within scope (items scope arguments) := by
  fun_induction items scope arguments with
  | case1 => exact .nil
  | case2 => exact within_map_operand _ _
  | case3 _ _ _ _ _ ih => exact .other rfl ih
  | case4 => exact .verb _ _
  | case5 => exact within_helpItem _ _
  | case7 _ _ _ _ _ _ hopt ih => exact .opt rfl (mem_accepted_of_ofLetter? hopt) ih
  | case10 _ _ _ _ _ hopt _ _ ih => exact .opt rfl (mem_accepted_of_ofName? hopt) ih
  | case12 _ _ _ _ _ hopt _ _ _ ih => exact .opt rfl (mem_accepted_of_ofName? hopt) ih
  | case14 _ _ _ _ hopt _ _ _ _ _ ih => exact .opt rfl (mem_accepted_of_ofName? hopt) ih
  -- where the line stops making sense, there is only a fault
  | _ => exact .other rfl .nil

/-- In front of the command word stand only options of the scope. -/
theorem Within.opt_mem_accepted {scope : Scope} {front behind : List Item}
    (h : Within scope (front ++ behind)) (hverbs : verbs front = []) :
    ∀ item ∈ front, ∀ opt ∈ item.opt?, opt ∈ Opt.accepted scope := by
  induction front with
  | nil => simp
  | cons item front ih =>
    rw [verbs_cons, List.append_eq_nil_iff] at hverbs
    rw [List.cons_append] at h
    cases h with
    | verb verb _ => simp [Item.verb?] at hverbs
    | opt hopt hmem hrest =>
      refine List.forall_mem_cons.mpr ⟨?_, ih hrest hverbs.2⟩
      rw [hopt]
      simpa using hmem
    | other hopt hrest =>
      refine List.forall_mem_cons.mpr ⟨?_, ih hrest hverbs.2⟩
      rw [hopt]
      simp

/-! ## The whole line -/

section Front

variable {opt : Opt} {front behind : List Item} (h : Within .main (front ++ behind))
  (hverbs : verbs front = []) (hopt : opt ∉ Opt.accepted .main)
include h hverbs hopt

/-- An option of one command is not set in front of the command word. -/
theorem values_front_eq_nil {α : Type} (read : String → Option α) : values opt read front = [] := by
  rw [values, List.filterMap_eq_nil_iff]
  intro item hitem
  have hmem := h.opt_mem_accepted hverbs item hitem
  cases item with
  | setting opt' word =>
    have hne : opt' ≠ opt := by
      rintro rfl
      exact hopt (hmem opt' rfl)
    exact if_neg hne
  | _ => rfl

/-- In front of the command word there is no flag that only the command accepts. -/
theorem hasFlag_front_eq_false : hasFlag opt front = false := by
  rw [hasFlag, decide_eq_false_iff_not]
  intro hitem
  exact hopt (h.opt_mem_accepted hverbs _ hitem opt rfl)

end Front

section Line

variable {parts parts' : List Item} (verb : Verb)

/-- The scope behind the command word decides. -/
theorem lastValue?_line {α : Type} {opt : Opt} {read : String → Option α} {front behind : Option α}
    (hfront : values opt read parts = front.toList)
    (hbehind : values opt read parts' = behind.toList) :
    lastValue? opt read (parts ++ .verb verb :: parts') = (behind <|> front) := by
  rw [lastValue?, values_append, values_cons, hfront, hbehind]
  cases front <;> cases behind <;> rfl

/-- A flag of a line stands in front of the command word or behind it. -/
theorem hasFlag_line (opt : Opt) :
    hasFlag opt (parts ++ .verb verb :: parts') = (hasFlag opt parts || hasFlag opt parts') := by
  rw [hasFlag_append, hasFlag_cons]
  rfl

/-- An option of one command comes from behind the command word. -/
theorem lastValue?_behind {α : Type} {opt : Opt} {read : String → Option α} {behind : Option α}
    (h : Within .main (parts ++ .verb verb :: parts')) (hverbs : verbs parts = [])
    (hopt : opt ∉ Opt.accepted .main) (hbehind : values opt read parts' = behind.toList) :
    lastValue? opt read (parts ++ .verb verb :: parts') = behind := by
  have hfront : values opt read parts = (none : Option α).toList :=
    values_front_eq_nil h hverbs hopt read
  rw [lastValue?_line verb hfront hbehind]
  cases behind <;> rfl

end Line

/-- The task that a command and the parts of its line make up. -/
def Task.ofParts (verb : Verb) (operand : String) (parts : List Item) : Task :=
  let len := (lastValue? .len count? parts).getD defaultLength
  match verb with
  | .decode => .decode operand (hasFlag .strict parts)
  | .encode =>
    .encode operand len ((lastValue? .maxChars count? parts).getD len)
      (lastValue? .pad padding? parts)
  | .fixup => .fixup operand

/-- The invocation that a command and the parts of its line make up. -/
def Invocation.ofParts (verb : Verb) (operand : String) (parts : List Item) : Invocation :=
  { config := lastValue? .config path? parts
    locale := lastValue? .locale Locale.ofName? parts
    korean := hasFlag .korean parts
    json := hasFlag .json parts
    task := Task.ofParts verb operand parts }

/-- An invocation is made up of one command word, one operand and the options of all parts. -/
theorem Collected.Covers.finish {collected : Collected} {parts : List Item}
    {invocation : Invocation} (h : collected.Covers parts) (hwithin : Within .main parts)
    (hfinish : collected.finish = .ok invocation) :
    ∃ verb operand, verbs parts = [verb] ∧ operands parts = [operand] ∧
      invocation = Invocation.ofParts verb operand parts := by
  cases h with
  | front hfront hoperands => cases hfinish
  | @behind front given verb frontParts behindParts hfront hoperands hbehind =>
    cases hoperand : given.operand with
    | none => simp [Collected.finish, hoperand] at hfinish
    | some operand =>
      have hverbs := hfront.verb
      have hconfig := lastValue?_line verb hfront.config hbehind.config
      have hlocale := lastValue?_line verb hfront.locale hbehind.locale
      -- the options of one command come from behind the command word
      have hlen := lastValue?_behind verb hwithin hverbs (by decide) hbehind.len
      have hcap := lastValue?_behind verb hwithin hverbs (by decide) hbehind.maxChars
      have hpadding := lastValue?_behind verb hwithin hverbs (by decide) hbehind.padding
      have hstrict : hasFlag .strict (frontParts ++ .verb verb :: behindParts) = given.strict := by
        rw [hasFlag_line, hasFlag_front_eq_false hwithin hverbs (by decide), hbehind.strict]
        rfl
      refine ⟨verb, operand, ?_, ?_, ?_⟩
      · rw [verbs_append, verbs_cons, hverbs, hbehind.verb]
        rfl
      · rw [operands_append, operands_cons, hoperands, hbehind.operand, hoperand]
        rfl
      · simp only [Collected.finish, hoperand, Except.ok.injEq] at hfinish
        unfold Invocation.ofParts Task.ofParts
        rw [← hfinish, hconfig, hlocale, hasFlag_line, hfront.korean, hbehind.korean, hasFlag_line,
          hfront.json, hbehind.json, hlen, hcap, hpadding, hstrict, Bool.or_comm front.korean,
          Bool.or_comm front.json]
        cases verb <;> rfl

/-- A line that makes sense has one command and one operand, and what its options give can be told
from the whole line: a flag is raised if it stands anywhere, and of two settings of an option the
last one counts. -/
theorem parts_of_parse {line : List String} {invocation : Invocation}
    (h : Invocation.parse line = .ok invocation) :
    ∃ verb operand, verbs (items .main line) = [verb] ∧ operands (items .main line) = [operand] ∧
      invocation = Invocation.ofParts verb operand (items .main line) := by
  obtain ⟨collected, hfold, hfinish⟩ := bind_eq_ok h
  exact ((Collected.Covers.front Given.sums_nil rfl).foldlM hfold).finish (within_items .main line)
    hfinish

/-- A locale behind the command word goes over one in front of it. -/
example : lastValue? .locale Locale.ofName?
    (items .main ["--locale=japanese", "decode", "BB", "--locale", "international"]) =
      some .international := by rfl

end Command
end SaveNames
