import Mathlib.Data.List.Nodup
import SaveNames.Proofs.Json.Printer
import SaveNames.Settings

/-!
# What a settings file means

A settings file holds a JSON object, and what the object says is told here member by member,
whatever their order (`Gives`), for objects that are written as they have to be (`IsWellFormed`).

**A file is accepted if and only if its object is well formed**, it gives every setting that it
names the value that stands there and every other its default, and so it makes no difference in what
order the members stand, how names are escaped or where blanks are put (`load_object`). Settings
that are printed are read back.
-/

namespace SaveNames
namespace Settings

open Json (Member HoldsObject meant?)

/-! ## Objects of settings -/

/-- The value chooses by this name: as a string, or as an object whose only member has the name and
the value null. -/
def Chooses (value : Json) (name : String) : Prop :=
  value = .string name ∨ value = .object [(name, .null)]

/-- The value gives the locale. -/
def GivesLocale (value : Json) (locale : Locale) : Prop := Chooses value locale.name

/-- The value gives the flag. -/
def GivesKorean (value : Json) (korean : Bool) : Prop := value = .bool korean

/-- The value gives the padding. -/
def GivesPadding (value : Json) (padding : Padding) : Prop := Chooses value padding.name

/-- The value of the member is one that its setting can have. -/
def HasValidValue (member : Member) : Prop :=
  ∃ value, member.2 = some value ∧
    (member.1 = some "locale" → ∃ locale, GivesLocale value locale) ∧
    (member.1 = some "korean" → ∃ korean, GivesKorean value korean) ∧
    (member.1 = some "pad" → ∃ padding, GivesPadding value padding)

/-- The members are written as they have to be: no name stands twice, every name is that of a
setting, and every value is valid for its name. -/
structure IsWellFormed (members : List Member) : Prop where
  distinct : (members.map Prod.fst).Nodup
  known : ∀ member ∈ members, member.1 ∈ [some "locale", some "korean", some "pad"]
  valid : ∀ member ∈ members, HasValidValue member

/-- The setting is what the member of this name gives, or its default if there is none. -/
structure Takes {α : Type} (members : List Member) (name : String) (gives : Json → α → Prop)
    (default setting : α) : Prop where
  present : ∀ value, (some name, value) ∈ members →
    ∃ given, value = some given ∧ gives given setting
  absent : (∀ value, (some name, value) ∉ members) → setting = default

/-- The members give these settings. -/
structure Gives (members : List Member) (settings : Settings) : Prop where
  locale : Takes members "locale" GivesLocale .international settings.locale
  korean : Takes members "korean" GivesKorean false settings.korean
  padding : Takes members "pad" GivesPadding .terminator settings.padding

/-! ## Single settings -/

/-- A name is read from exactly the values that choose by it. -/
theorem choice?_eq_some_iff {value : Json} {name : String} :
    choice? value = some name ↔ Chooses value name := by
  unfold choice?
  split
  · simp [Chooses]
  · simp [Chooses]
  · next hstring hobject =>
    refine iff_of_false (by simp) ?_
    rintro (h | h)
    · exact hstring _ h
    · exact hobject _ h

/-- The only element with a name, if each element is the first one with its own name. -/
theorem find?_name_eq_some_iff {α : Type} {name : α → String} {all : List α}
    (hfirst : ∀ element, all.find? (fun other => name other = name element) = some element)
    {text : String} {element : α} :
    all.find? (fun other => name other = text) = some element ↔ text = name element := by
  constructor
  · intro h
    have hname := List.find?_some h
    exact (of_decide_eq_true hname).symm
  · rintro rfl
    exact hfirst element

/-- A locale is read from exactly the values that give it. -/
theorem locale?_eq_some_iff {value : Json} {locale : Locale} :
    locale? value = some locale ↔ GivesLocale value locale := by
  have hfirst : ∀ locale, Locale.ofName? locale.name = some locale := by
    intro locale
    cases locale <;> rfl
  have hname : ∀ name, Locale.ofName? name = some locale ↔ name = locale.name :=
    fun name => find?_name_eq_some_iff hfirst
  simp only [locale?, Option.bind_eq_some_iff, choice?_eq_some_iff, hname, exists_eq_right,
    GivesLocale]

theorem korean?_eq_some_iff {value : Json} {korean : Bool} :
    korean? value = some korean ↔ GivesKorean value korean := by
  cases value <;> simp [korean?, GivesKorean]

/-- A padding is read from exactly the values that give it. -/
theorem padding?_eq_some_iff {value : Json} {padding : Padding} :
    padding? value = some padding ↔ GivesPadding value padding := by
  have hfirst : ∀ padding, Padding.ofName? padding.name = some padding := by
    intro padding
    cases padding <;> rfl
  have hname : ∀ name, Padding.ofName? name = some padding ↔ name = padding.name :=
    fun name => find?_name_eq_some_iff hfirst
  simp only [padding?, Option.bind_eq_some_iff, choice?_eq_some_iff, hname, exists_eq_right,
    GivesPadding]

/-! ## Members -/

/-- The members of an object all of whose parts have a meaning. -/
def meaningful (members : List (String × Json)) : List Member :=
  members.map fun member => (some member.1, some member.2)

theorem mem_meaningful_iff {members : List (String × Json)} {name : String}
    {value : Option Json} :
    (some name, value) ∈ meaningful members ↔
      ∃ given, (name, given) ∈ members ∧ value = some given := by
  constructor
  · intro h
    obtain ⟨⟨name', given⟩, hmem, heq⟩ := List.mem_map.mp h
    obtain ⟨hname, hvalue⟩ := Prod.mk.inj heq
    obtain rfl := Option.some.inj hname
    exact ⟨given, hmem, hvalue.symm⟩
  · rintro ⟨given, hmem, rfl⟩
    exact List.mem_map.mpr ⟨_, hmem, rfl⟩

theorem map_fst_meaningful (members : List (String × Json)) :
    (meaningful members).map Prod.fst = (members.map Prod.fst).map some := by
  simp [meaningful]

/-- The members have a meaning if and only if all their names and values have. -/
theorem meant?_eq_some_iff {members : List Member} {members' : List (String × Json)} :
    meant? members = some members' ↔ members = meaningful members' := by
  constructor
  · intro h
    induction members generalizing members' with
    | nil =>
      obtain rfl := Option.some.inj h
      rfl
    | cons member members ih =>
      rw [Json.meant?_cons] at h
      obtain ⟨name, value⟩ := member
      simp only [Option.bind_eq_bind, Option.bind_eq_some_iff, Option.pure_def] at h
      obtain ⟨name, rfl, value, rfl, rest, hrest, hmembers⟩ := h
      obtain rfl := Option.some.inj hmembers
      rw [ih hrest]
      rfl
  · rintro rfl
    exact Json.meant?_map_some members'

section Distinct

variable {members : List (String × Json)} (hdistinct : (members.map Prod.fst).Nodup)
include hdistinct

/-- If no name stands twice, looking a name up finds the member that has it. -/
theorem lookup_eq_some_iff_mem {name : String} {value : Json} :
    members.lookup name = some value ↔ (name, value) ∈ members := by
  constructor
  · intro h
    obtain ⟨front, behind, rfl, -⟩ := List.lookup_eq_some_iff.mp h
    exact List.mem_append_right _ List.mem_cons_self
  · intro hmem
    cases hlookup : members.lookup name with
    | none => exact absurd (List.lookup_eq_none_iff.mp hlookup _ hmem) (by simp)
    | some value' =>
      obtain ⟨front, behind, hsplit, -⟩ := List.lookup_eq_some_iff.mp hlookup
      have hmem' : (name, value') ∈ members := hsplit ▸ List.mem_append_right _ List.mem_cons_self
      have heq := List.inj_on_of_nodup_map hdistinct hmem' hmem rfl
      rw [(Prod.mk.inj heq).2]

/-- Looking the value of a setting up and reading it gives what the members say about it. -/
theorem given?_lookup_eq_some_iff {α : Type} {read : Json → Option α} {gives : Json → α → Prop}
    (hread : ∀ value setting, read value = some setting ↔ gives value setting) {name : String}
    {default setting : α} :
    given? read default (members.lookup name) = some setting ↔
      Takes (meaningful members) name gives default setting := by
  cases hlookup : members.lookup name with
  | none =>
    have hnot : ∀ value, (some name, value) ∉ meaningful members := by
      intro value hmem
      obtain ⟨given, hgiven, -⟩ := mem_meaningful_iff.mp hmem
      exact absurd (List.lookup_eq_none_iff.mp hlookup _ hgiven) (by simp)
    rw [given?, Option.some.injEq]
    constructor
    · rintro rfl
      exact ⟨fun value hmem => absurd hmem (hnot value), fun _ => rfl⟩
    · intro htakes
      exact (htakes.absent hnot).symm
  | some value =>
    have hmem := (lookup_eq_some_iff_mem hdistinct).mp hlookup
    have hmem' := mem_meaningful_iff.mpr ⟨value, hmem, rfl⟩
    rw [given?, hread]
    constructor
    · intro hgives
      refine ⟨fun value' hvalue => ?_, fun habsent => absurd hmem' (habsent _)⟩
      obtain ⟨given, hgiven, rfl⟩ := mem_meaningful_iff.mp hvalue
      -- the name stands once, so this is the value that was looked up
      have heq := List.inj_on_of_nodup_map hdistinct hgiven hmem rfl
      rw [(Prod.mk.inj heq).2]
      exact ⟨value, rfl, hgives⟩
    · intro htakes
      obtain ⟨given, heq, hgives⟩ := htakes.present _ hmem'
      rwa [Option.some.inj heq]

end Distinct

/-! ## Objects -/

/-- The settings that members are read as. -/
def ofObject? (members : List Member) : Option Settings := (meant? members).bind ofMembers?

/-- Settings are read if and only if each of the three is read or left to its default. -/
theorem ofValues?_eq_some_iff {locale korean padding : Option Json} {settings : Settings} :
    ofValues? locale korean padding = some settings ↔
      given? locale? .international locale = some settings.locale ∧
        given? korean? false korean = some settings.korean ∧
          given? padding? .terminator padding = some settings.padding := by
  simp only [ofValues?, Option.bind_eq_bind, Option.bind_eq_some_iff, Option.pure_def,
    Option.some.injEq]
  constructor
  · rintro ⟨locale, hlocale, korean, hkorean, padding, hpadding, rfl⟩
    exact ⟨hlocale, hkorean, hpadding⟩
  · rintro ⟨hlocale, hkorean, hpadding⟩
    exact ⟨_, hlocale, _, hkorean, _, hpadding, rfl⟩

/-- If no name stands twice, the values found by name are read as the settings that the members
give. -/
theorem ofValues?_lookup_eq_some_iff {members : List (String × Json)}
    (hdistinct : (members.map Prod.fst).Nodup) {settings : Settings} :
    ofValues? (members.lookup "locale") (members.lookup "korean") (members.lookup "pad") =
        some settings ↔ Gives (meaningful members) settings := by
  rw [ofValues?_eq_some_iff,
    given?_lookup_eq_some_iff hdistinct fun _ _ => locale?_eq_some_iff,
    given?_lookup_eq_some_iff hdistinct fun _ _ => korean?_eq_some_iff,
    given?_lookup_eq_some_iff hdistinct fun _ _ => padding?_eq_some_iff]
  exact ⟨fun h => ⟨h.1, h.2.1, h.2.2⟩, fun h => ⟨h.locale, h.korean, h.padding⟩⟩

/-- The names are those of settings if and only if the reader knows all of them. -/
theorem known_meaningful_iff {members : List (String × Json)} :
    (∀ member ∈ meaningful members, member.1 ∈ [some "locale", some "korean", some "pad"]) ↔
      ∀ name ∈ members.map Prod.fst, name ∈ names := by
  rw [meaningful, List.forall_mem_map, List.forall_mem_map]
  simp [names]

theorem eq_of_known {name : Option String}
    (h : name ∈ [some "locale", some "korean", some "pad"]) :
    name = some "locale" ∨ name = some "korean" ∨ name = some "pad" := by
  simpa using h

/-- Every value that gives a setting is valid for it. -/
theorem Gives.hasValidValue {members : List Member} {settings : Settings}
    (h : Gives members settings)
    (hknown : ∀ member ∈ members, member.1 ∈ [some "locale", some "korean", some "pad"]) :
    ∀ member ∈ members, HasValidValue member := by
  rintro ⟨name, value⟩ hmem
  rcases eq_of_known (hknown _ hmem) with rfl | rfl | rfl
  · obtain ⟨given, rfl, hgives⟩ := h.locale.present _ hmem
    exact ⟨given, rfl, fun _ => ⟨_, hgives⟩, by simp, by simp⟩
  · obtain ⟨given, rfl, hgives⟩ := h.korean.present _ hmem
    exact ⟨given, rfl, by simp, fun _ => ⟨_, hgives⟩, by simp⟩
  · obtain ⟨given, rfl, hgives⟩ := h.padding.present _ hmem
    exact ⟨given, rfl, by simp, by simp, fun _ => ⟨_, hgives⟩⟩

/-- What is well formed has a meaning. -/
theorem IsWellFormed.exists_meaningful {members : List Member} (h : IsWellFormed members) :
    ∃ members', members = meaningful members' := by
  have hparts : ∀ member ∈ members, ∃ name value, member = (some name, some value) := by
    rintro ⟨name, value⟩ hmem
    obtain ⟨given, rfl, -⟩ := h.valid _ hmem
    rcases eq_of_known (h.known _ hmem) with rfl | rfl | rfl <;> exact ⟨_, _, rfl⟩
  clear h
  induction members with
  | nil => exact ⟨[], rfl⟩
  | cons member members ih =>
    obtain ⟨⟨name, value, rfl⟩, hrest⟩ := List.forall_mem_cons.mp hparts
    obtain ⟨members', rfl⟩ := ih hrest
    exact ⟨(name, value) :: members', rfl⟩

/-- Members are read as settings if they are well formed and give these settings. -/
theorem ofObject?_eq_some_iff {members : List Member} {settings : Settings} :
    ofObject? members = some settings ↔ IsWellFormed members ∧ Gives members settings := by
  rw [ofObject?, Option.bind_eq_some_iff]
  constructor
  · rintro ⟨members', hmeant, hsettings⟩
    rw [meant?_eq_some_iff] at hmeant
    rw [ofMembers?] at hsettings
    split at hsettings
    · next hnames =>
      have hgives := (ofValues?_lookup_eq_some_iff hnames.1).mp hsettings
      have hknown := known_meaningful_iff.mpr hnames.2
      have hdistinct : ((meaningful members').map Prod.fst).Nodup := by
        rw [map_fst_meaningful]
        exact hnames.1.map fun _ _ => Option.some.inj
      rw [hmeant]
      exact ⟨⟨hdistinct, hknown, hgives.hasValidValue hknown⟩, hgives⟩
    · cases hsettings
  · rintro ⟨hwell, hgives⟩
    obtain ⟨members', rfl⟩ := hwell.exists_meaningful
    have hdistinct : (members'.map Prod.fst).Nodup := by
      have hnames := hwell.distinct
      rw [map_fst_meaningful] at hnames
      exact hnames.of_map _
    refine ⟨members', meant?_eq_some_iff.mpr rfl, ?_⟩
    rw [ofMembers?, if_pos ⟨hdistinct, known_meaningful_iff.mp hwell.known⟩]
    exact (ofValues?_lookup_eq_some_iff hdistinct).mpr hgives

/-- A name that stands once gives one setting, and one that does not stand its default. -/
theorem exists_takes {α : Type} {members : List Member} {gives : Json → α → Prop} {name : String}
    (hdistinct : (members.map Prod.fst).Nodup)
    (hvalid : ∀ value, (some name, value) ∈ members →
      ∃ given setting, value = some given ∧ gives given setting) (default : α) :
    ∃ setting, Takes members name gives default setting := by
  by_cases hmem : ∃ value, (some name, value) ∈ members
  · obtain ⟨value, hmem⟩ := hmem
    obtain ⟨given, setting, rfl, hgives⟩ := hvalid value hmem
    refine ⟨setting, fun value' hmem' => ?_, fun habsent => absurd hmem (habsent _)⟩
    -- no second member has the name, so none contradicts this one
    have heq := List.inj_on_of_nodup_map hdistinct hmem' hmem rfl
    exact ⟨given, (Prod.mk.inj heq).2, hgives⟩
  · exact ⟨default, fun value hmem' => absurd ⟨value, hmem'⟩ hmem, fun _ => rfl⟩

/-- Well-formed members give settings: a valid value gives its own, and a missing one the default.
-/
theorem IsWellFormed.exists_gives {members : List Member} (h : IsWellFormed members) :
    ∃ settings, Gives members settings := by
  have hlocale : ∃ locale, Takes members "locale" GivesLocale .international locale := by
    refine exists_takes h.distinct (fun value hmem => ?_) _
    obtain ⟨given, hvalue, hgiven, -, -⟩ := h.valid _ hmem
    obtain ⟨locale, hgives⟩ := hgiven rfl
    exact ⟨given, locale, hvalue, hgives⟩
  have hkorean : ∃ korean, Takes members "korean" GivesKorean false korean := by
    refine exists_takes h.distinct (fun value hmem => ?_) _
    obtain ⟨given, hvalue, -, hgiven, -⟩ := h.valid _ hmem
    obtain ⟨korean, hgives⟩ := hgiven rfl
    exact ⟨given, korean, hvalue, hgives⟩
  have hpadding : ∃ padding, Takes members "pad" GivesPadding .terminator padding := by
    refine exists_takes h.distinct (fun value hmem => ?_) _
    obtain ⟨given, hvalue, -, -, hgiven⟩ := h.valid _ hmem
    obtain ⟨padding, hgives⟩ := hgiven rfl
    exact ⟨given, padding, hvalue, hgives⟩
  obtain ⟨locale, hlocale⟩ := hlocale
  obtain ⟨korean, hkorean⟩ := hkorean
  obtain ⟨padding, hpadding⟩ := hpadding
  exact ⟨{ locale, korean, padding }, hlocale, hkorean, hpadding⟩

/-! ## The order of the members -/

/-- Well-formed members stay so in every order. -/
theorem IsWellFormed.perm {members members' : List Member} (hperm : members.Perm members')
    (h : IsWellFormed members) : IsWellFormed members' where
  distinct := (hperm.map Prod.fst).nodup h.distinct
  known member hmem := h.known member (hperm.mem_iff.mpr hmem)
  valid member hmem := h.valid member (hperm.mem_iff.mpr hmem)

theorem Takes.perm {α : Type} {members members' : List Member} {name : String}
    {gives : Json → α → Prop} {default setting : α} (hperm : members.Perm members')
    (h : Takes members name gives default setting) :
    Takes members' name gives default setting where
  present value hmem := h.present value (hperm.mem_iff.mpr hmem)
  absent hnot := h.absent fun value hmem => hnot value (hperm.mem_iff.mp hmem)

theorem Gives.perm {members members' : List Member} {settings : Settings}
    (hperm : members.Perm members') (h : Gives members settings) : Gives members' settings :=
  ⟨h.locale.perm hperm, h.korean.perm hperm, h.padding.perm hperm⟩

/-- In every order the members are read as the same settings, or refused. -/
theorem ofObject?_perm {members members' : List Member} (hperm : members.Perm members') :
    ofObject? members = ofObject? members' := by
  refine Option.ext fun settings => ?_
  rw [ofObject?_eq_some_iff, ofObject?_eq_some_iff]
  exact ⟨fun h => ⟨h.1.perm hperm, h.2.perm hperm⟩,
    fun h => ⟨h.1.perm hperm.symm, h.2.perm hperm.symm⟩⟩

/-! ## Files -/

/-- A file of text is read as the settings that its value stands for, and refused by its path if
there are none. -/
theorem load_eq (path text : String) :
    load path (.contents text.toUTF8) =
      match (Json.parse? text.toList).bind ofJson? with
      | some settings => .ok settings
      | none => .error (.badSettings path) := by
  have hvalid : String.fromUTF8? text.toUTF8 = some text := dif_pos text.isValidUTF8
  have htext : (FileState.contents text.toUTF8).text = .ok text := by rw [FileState.text, hvalid]
  rw [load, htext]
  rfl

/-- A file that holds an object is read as what the members of the object are read as. -/
theorem load_of_holdsObject (path : String) {text : String} {members : List Member}
    (h : HoldsObject text.toList members) :
    load path (.contents text.toUTF8) =
      match ofObject? members with
      | some settings => .ok settings
      | none => .error (.badSettings path) := by
  have hvalue : (Json.parse? text.toList).bind ofJson? = ofObject? members := by
    rw [Json.parse?_eq h.isElement, ofObject?]
    cases meant? members <;> rfl
  rw [load_eq, hvalue]

/-- A file that holds an object is accepted if and only if the members are well formed, with the
settings that they give. -/
theorem load_eq_ok_iff (path : String) {text : String} {members : List Member}
    (h : HoldsObject text.toList members) {settings : Settings} :
    load path (.contents text.toUTF8) = .ok settings ↔
      IsWellFormed members ∧ Gives members settings := by
  rw [load_of_holdsObject path h, ← ofObject?_eq_some_iff]
  cases ofObject? members <;> simp

theorem isWellSpelled_toJson (settings : Settings) : settings.toJson.IsWellSpelled := by
  refine .object ?_
  simp only [List.forall_mem_cons]
  exact ⟨.string _, .bool _, .string _, by simp⟩

/-- The value that settings are printed as stands for the settings. -/
theorem ofJson?_toJson (settings : Settings) : ofJson? settings.toJson = some settings := by
  obtain ⟨locale, korean, padding⟩ := settings
  cases locale <;> cases padding <;> rfl

/-- Printed settings are read back. -/
theorem load_print (path : String) {style : Json.Style} (hstyle : style.IsBlank)
    (settings : Settings) :
    load path (.contents (settings.toJson.print style).toUTF8) = .ok settings := by
  rw [load_eq, Json.parse?_print hstyle settings.isWellSpelled_toJson, Option.bind_some,
    ofJson?_toJson]

/-- Reading a settings file that holds one object. It is accepted if and only if the object is well
formed: no name stands twice, every name is that of a setting, and every value is valid for its
name. The settings are then those that the members give, with defaults for the names that do not
stand; otherwise the error is that of bad settings. Files whose objects have the same members in
any order are read alike, and settings that are printed on one line or on several are read back. -/
theorem load_object (path : String) {text : String} {members : List Member}
    (h : HoldsObject text.toList members) :
    let result := load path (.contents text.toUTF8)
    ((∃ settings, result = .ok settings) ↔ IsWellFormed members) ∧
      (∀ settings, result = .ok settings → Gives members settings) ∧
      (¬IsWellFormed members → result = .error (.badSettings path)) ∧
      (∀ (text' : String) members', HoldsObject text'.toList members' → members'.Perm members →
        load path (.contents text'.toUTF8) = result) ∧
      ∀ (settings : Settings) style, style = Json.Style.compact ∨ style = Json.Style.indented →
        load path (.contents (settings.toJson.print style).toUTF8) = .ok settings := by
  intro result
  have hresult : result = _ := load_of_holdsObject path h
  have hok : ∀ settings, result = .ok settings ↔ IsWellFormed members ∧ Gives members settings :=
    fun _ => load_eq_ok_iff path h
  refine ⟨?_, fun settings hread => ((hok settings).mp hread).2, ?_, ?_, ?_⟩
  · constructor
    · rintro ⟨settings, hread⟩
      exact ((hok settings).mp hread).1
    · intro hwell
      obtain ⟨settings, hgives⟩ := hwell.exists_gives
      exact ⟨settings, (hok settings).mpr ⟨hwell, hgives⟩⟩
  · intro hnot
    have hread : ofObject? members = none := by
      rw [Option.eq_none_iff_forall_ne_some]
      intro settings hsome
      exact hnot (ofObject?_eq_some_iff.mp hsome).1
    rw [hresult, hread]
  · intro text' members' h' hperm
    rw [load_of_holdsObject path h', ofObject?_perm hperm, hresult]
  · rintro settings style (rfl | rfl)
    · exact load_print path Json.Style.isBlank_compact settings
    · exact load_print path Json.Style.isBlank_indented settings

/-- An escaped name, a choice that is written as an object, and a setting that does not stand. -/
theorem load_object_escaped :
    let text := "\x7b\"pad\" : \x7b\"keep\":null\x7d,\n\"lo\\u0063ale\":\"japanese\"\x7d "
    let members : List Member :=
      [(some "pad", some (.object [("keep", .null)])), (some "locale", some (.string "japanese"))]
    HoldsObject text.toList members ∧
      load "names.json" (.contents text.toUTF8) =
        .ok { locale := .japanese, korean := false, padding := .keep } := by
  intro text members
  have hholds : HoldsObject text.toList members := by
    have hspace : Json.IsGap [' '] := by simp [Json.IsGap]
    have hnewline : Json.IsGap ['\n'] := by simp [Json.IsGap]
    have hkeep := Json.IsMember.intro Json.isGap_nil (Json.spells_flatMap_escape "keep".toList)
      Json.isGap_nil (.intro Json.isGap_nil Json.isGap_nil .null)
    have hpad := Json.IsMember.intro Json.isGap_nil (Json.spells_flatMap_escape "pad".toList) hspace
      (.intro hspace Json.isGap_nil (.object (.members (.one hkeep))))
    have hzero : Hex.IsDigit 0 '0' := by decide
    have hsix : Hex.IsDigit 6 '6' := by decide
    have hthree : Hex.IsDigit 3 '3' := by decide
    -- the third letter of the name is spelled by its number
    have hletters : Json.Spells _ _ := ((((Json.spells_flatMap_escape "ale".toList).digits hzero
      hzero hsix hthree).escape_append 'o').escape_append 'l')
    have hlocale := Json.IsMember.intro hnewline hletters Json.isGap_nil
      (.intro Json.isGap_nil Json.isGap_nil
        (.string (Json.spells_flatMap_escape "japanese".toList)))
    have hobject := Json.IsObject.members (.cons hpad (.one hlocale))
    exact ⟨[], _, [' '], Json.isGap_nil, hobject, hspace, by decide⟩
  have hwell : IsWellFormed members := by
    refine ⟨by decide, by decide, ?_⟩
    simp only [members, List.forall_mem_cons]
    refine ⟨⟨_, rfl, by simp, by simp, fun _ => ⟨.keep, .inr rfl⟩⟩,
      ⟨_, rfl, fun _ => ⟨.japanese, .inl rfl⟩, by simp, by simp⟩, by simp⟩
  obtain ⟨haccepted, hgives, -⟩ := load_object "names.json" hholds
  obtain ⟨settings, hok⟩ := haccepted.mpr hwell
  have hsettings := hgives settings hok
  have hlocale : settings.locale = .japanese := by
    obtain ⟨given, hvalue, hgiven⟩ := hsettings.locale.present _ (.tail _ (.head _))
    rw [← Option.some.inj hvalue, ← locale?_eq_some_iff] at hgiven
    exact (Option.some.inj hgiven).symm
  have hkorean : settings.korean = false := hsettings.korean.absent (by simp [members])
  have hpadding : settings.padding = .keep := by
    obtain ⟨given, hvalue, hgiven⟩ := hsettings.padding.present _ (.head _)
    rw [← Option.some.inj hvalue, ← padding?_eq_some_iff] at hgiven
    exact (Option.some.inj hgiven).symm
  rw [hok, ← hlocale, ← hkorean, ← hpadding]
  exact ⟨hholds, rfl⟩

end Settings
end SaveNames
