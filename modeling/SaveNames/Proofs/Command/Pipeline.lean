import SaveNames.Proofs.Canonical
import SaveNames.Proofs.Command.Lines
import SaveNames.Proofs.Hex

/-!
# Command lines one behind the other

What one command prints, another one takes as its operand: a name that was written can be read,
and its decimal points can be replaced. A dump that was printed parses to the bytes that it was
printed from, so the dump in between adds nothing and takes nothing away: **the commands compose
as the functions behind them do** (`run_encode_decode_fixup`). Only a buffer that is longer than any
can be is not written at all.
-/

namespace SaveNames
namespace Command

/-! ## What a line prints -/

/-- The transcript of a run that succeeded and printed the text as a line. -/
def Transcript.line (text : Text) : Transcript := { stdout := String.ofList text ++ "\n" }

/-- Every command line that asks for the task prints the text as a line, and nothing else. -/
def Prints (files : String → Settings.FileState) (locale : Option Locale) (korean : Bool)
    (task : Task) (text : Text) : Prop :=
  ∀ line, Asks line locale korean task → run files line = .line text

section Tasks

variable (files : String → Settings.FileState) (locale : Option Locale) (korean : Bool)

/-- Without a settings file, the options of the line go over the defaults. -/
theorem prints_of_run {task : Task} {text : Text}
    (h : task.run { locale := locale.getD Locale.default, korean } false =
      .ok (String.ofList text)) : Prints files locale korean task text := by
  intro line hasks
  let invocation : Invocation := { config := none, locale, korean, json := false, task }
  have hsettings : invocation.settings .absent =
      .ok { locale := locale.getD Locale.default, korean } := by
    show Except.ok ({ locale := locale.getD Locale.default, korean := korean || false } : Settings)
      = _
    rw [Bool.or_false]
  have hresult : (do
      let settings ← (invocation.settings .absent).mapError Failure.refused
      invocation.task.run settings invocation.json) = .ok (String.ofList text) := by
    rw [hsettings]
    exact h
  have hrun : invocation.run .absent = .line text := by
    unfold Invocation.run
    simp only [hresult]
    rfl
  unfold Asks at hasks
  unfold run
  rw [hasks]
  exact hrun

/-- Writing a text prints the bytes of a fresh buffer, if there can be one. -/
theorem prints_encode (text : String) {len : Nat} (hlen : len ≤ maxBufferLength) (maxChars : Nat)
    (padding : Option Padding) :
    Prints files locale korean (.encode text len maxChars padding)
      (Hex.print (encodeFresh (locale.getD Locale.default) (padding.getD Padding.default) maxChars
        len text.toList).1) := by
  apply prints_of_run
  simp only [Task.run, encodeFresh?_of_le _ _ _ _ hlen]
  rfl

/-- Reading a printed dump is reading its bytes. -/
theorem prints_decode {data : Bytes} {text : Text}
    (h : decodeChecked (locale.getD Locale.default) data = .ok text) :
    Prints files locale korean (.decode (String.ofList (Hex.print data)) true) text := by
  apply prints_of_run
  rw [Task.run, String.toList_ofList, Hex.parse_print]
  show ((decodeChecked (locale.getD Locale.default) data).mapError Failure.refused >>=
    fun text => _) = _
  rw [h]
  rfl

/-- Replacing decimal points in a printed dump is replacing them in its bytes. -/
theorem prints_fixup (data : Bytes) :
    Prints files locale korean (.fixup (String.ofList (Hex.print data)))
      (Hex.print (replaceDecimalPoints (locale.getD Locale.default) korean data).1) := by
  apply prints_of_run
  rw [Task.run, String.toList_ofList, Hex.parse_print]
  rfl

end Tasks

/-- A dump is one line. -/
theorem newline_notMem_print (bytes : Bytes) : '\n' ∉ Hex.print bytes := by
  have hall : ∀ ch ∈ Hex.print bytes, ch ≠ '\n' :=
    Hex.forall_mem_print (by decide) (by decide) bytes
  intro hmem
  exact hall '\n' hmem rfl

/-! ## One command behind the other -/

/-- Replacing decimal points twice in a written name is replacing them once. -/
theorem replaceDecimalPoints_encodeFresh_storedText (locale : Locale) (korean : Bool)
    (padding : Padding) (maxChars length : Nat) (text : Text) :
    (replaceDecimalPoints locale korean
        (encodeFresh locale padding maxChars length (storedText locale korean text)).1).1 =
      (encodeFresh locale padding maxChars length (storedText locale korean text)).1 := by
  rw [encodeFresh, replaceDecimalPoints_encode, storedText_storedText]

/-- A text that is encoded is printed as one line of hex. Decoding this line prints the characters
that were placed, apostrophes in the locale's form, and no dangling lead byte is found. Replacing
decimal points in it prints what encoding prints for the text with periods, or the line itself
where nothing is replaced, and doing it again changes nothing. All this holds for every line that
asks for these tasks, and there are such lines for every text. What encodes is assumed to ask for a
buffer that there can be. -/
theorem run_encode_decode_fixup (files : String → Settings.FileState) (locale : Option Locale)
    (korean : Bool) {len maxChars : Option Nat} (padding : Option Padding) (text : String)
    (hlen : ∀ count ∈ len, count < countLimit) (hcap : ∀ count ∈ maxChars, count < countLimit) :
    let variant := locale.getD Locale.default
    let room := len.getD defaultLength
    let cap := maxChars.getD room
    let write := encodeFresh variant (padding.getD Padding.default) cap room
    let dump := Hex.print (write text.toList).1
    let shown := (text.toList.take (write text.toList).2.chars).map variant.fold
    let stored := storedText variant korean text.toList
    let fixed := Hex.print (write stored).1
    (∀ operand, Asks (encodeLine locale len maxChars padding operand) locale false
        (.encode operand room cap padding)) ∧
      (∀ operand, Asks (decodeLine locale operand) locale false (.decode operand true)) ∧
      (∀ operand, Asks (fixupLine locale korean operand) locale korean (.fixup operand)) ∧
      (∀ flag, Prints files locale flag (.decode (String.ofList dump) true) shown ∧
        (room ≤ maxBufferLength →
          Prints files locale flag (.encode text room cap padding) dump ∧
          Prints files locale flag (.encode (String.ofList stored) room cap padding) fixed)) ∧
      Prints files locale korean (.fixup (String.ofList dump)) fixed ∧
      Prints files locale korean (.fixup (String.ofList fixed)) fixed ∧
      (¬(variant = .international ∧ korean = false) → fixed = dump) ∧
      '\n' ∉ dump := by
  intro variant room cap write dump shown stored fixed
  have hread : decodeChecked variant (write text.toList).1 = .ok shown := by
    have hcanonical : IsCanonical variant (write text.toList).1 :=
      isCanonical_encode variant _ cap text.toList _
    have hdecode : decode variant (write text.toList).1 = shown :=
      decode_encode variant _ cap text.toList _
    rw [hcanonical.decodeChecked_eq, hdecode]
  have hencode : room ≤ maxBufferLength → ∀ flag, Prints files locale flag
      (.encode (String.ofList stored) room cap padding) fixed := by
    intro hroom flag
    have hprints := prints_encode files locale flag (String.ofList stored) hroom cap padding
    rw [String.toList_ofList] at hprints
    exact hprints
  have hreplace : (replaceDecimalPoints variant korean (write text.toList).1).1 =
      (write stored).1 :=
    replaceDecimalPoints_encode variant korean _ cap text.toList _
  have hfixup := prints_fixup files locale korean (write text.toList).1
  have hagain := prints_fixup files locale korean (write stored).1
  rw [hreplace] at hfixup
  rw [replaceDecimalPoints_encodeFresh_storedText] at hagain
  refine ⟨fun operand => asks_encodeLine locale padding operand hlen hcap,
    asks_decodeLine locale, asks_fixupLine locale korean,
    fun flag => ⟨?_, fun hroom => ⟨?_, hencode hroom flag⟩⟩, hfixup, hagain, ?_,
    newline_notMem_print _⟩
  · exact prints_decode files locale flag hread
  · exact prints_encode files locale flag text hroom cap padding
  · intro hkeep
    have hstored : stored = text.toList := if_neg hkeep
    show Hex.print (write stored).1 = Hex.print (write text.toList).1
    rw [hstored]

/-- A text behind a dash, with an apostrophe and a decimal point, cut by the cap. -/
theorem run_encode_decode_fixup_cut :
    (∀ count ∈ some 5, count < countLimit) ∧ (∀ count ∈ some 3, count < countLimit) ∧
      run (fun _ => .absent) ["encode", "--len", "5", "--max-chars", "3", "--pad", "fill50",
        "--", "-'・A"] = .line "AE B4 AF FF 50".toList ∧
      run (fun _ => .absent) ["decode", "--strict", "AE B4 AF FF 50"] = .line "-’・".toList ∧
      run (fun _ => .absent) ["fixup", "AE B4 AF FF 50"] = .line "AE B4 AD FF 50".toList := by
  have hlen : ∀ count ∈ some 5, count < countLimit := by decide
  have hcap : ∀ count ∈ some 3, count < countLimit := by decide
  have hwritten : encodeFresh .international .fixed 3 5 "-'・A".toList =
      ([0xAE, 0xB4, 0xAF, 0xFF, 0x50], ⟨4, 3, 1, none⟩) := by decide +kernel
  have hstored : encodeFresh .international .fixed 3 5
      (storedText .international false "-'・A".toList) =
        ([0xAE, 0xB4, 0xAD, 0xFF, 0x50], ⟨4, 3, 1, none⟩) := by decide +kernel
  have hdump : Hex.print [0xAE, 0xB4, 0xAF, 0xFF, 0x50] = "AE B4 AF FF 50".toList := by
    decide +kernel
  have hshown : ("-'・A".toList.take 3).map Locale.international.fold = "-’・".toList := by
    decide +kernel
  have hfixed : Hex.print [0xAE, 0xB4, 0xAD, 0xFF, 0x50] = "AE B4 AD FF 50".toList := by
    decide +kernel
  have h := run_encode_decode_fixup (fun _ => .absent) none false (some .fixed) "-'・A" hlen hcap
  simp only [Option.getD_none, Option.getD_some, Locale.default, hwritten, hstored, hdump, hshown,
    hfixed, String.ofList_toList] at h
  obtain ⟨hencode, hdecode, hfixup, hprints, hreplaced, -⟩ := h
  have hencodeLine : encodeLine none (some 5) (some 3) (some .fixed) "-'・A" =
      ["encode", "--len", "5", "--max-chars", "3", "--pad", "fill50", "--", "-'・A"] := by
    decide +kernel
  have hdecodeLine : decodeLine none "AE B4 AF FF 50" =
      ["decode", "--strict", "AE B4 AF FF 50"] := by decide +kernel
  have hfixupLine : fixupLine none false "AE B4 AF FF 50" = ["fixup", "AE B4 AF FF 50"] := by
    decide +kernel
  refine ⟨hlen, hcap, ?_, ?_, ?_⟩
  · rw [← hencodeLine]
    exact ((hprints false).2 (by decide)).1 _ (hencode _)
  · rw [← hdecodeLine]
    exact (hprints false).1 _ (hdecode _)
  · rw [← hfixupLine]
    exact hreplaced _ (hfixup _)

end Command
end SaveNames
