import SaveNames.Proofs.Json.Grammar

/-!
# Parsing texts of the grammar

**The parser reads every text of the grammar as what it means, and refuses those that mean nothing**
(`parse?_eq`). A piece in front of other text is read to its end and no further: for gaps, strings
and the parts of numbers this is said below one by one, and for values it is one induction on the
depth that the parser counts down (`reads`).
-/

namespace SaveNames
namespace Json

variable {rest : Text}

/-! ## Blanks -/

theorem isSpace_iff {ch : Char} :
    isSpace ch = true ↔ ch = ' ' ∨ ch = '\t' ∨ ch = '\n' ∨ ch = '\r' := by
  simp [isSpace, or_assoc]

/-- The blanks in front of a text are skipped. -/
theorem skip_append {gap : Text} (h : IsGap gap) (rest : Text) : skip (gap ++ rest) = skip rest :=
  List.dropWhile_append_of_pos fun ch hmem => isSpace_iff.mpr (h ch hmem)

theorem skip_cons {ch : Char} (h : isSpace ch = false) (rest : Text) :
    skip (ch :: rest) = ch :: rest := by
  rw [skip, List.dropWhile_cons, h]
  rfl

theorem skip_gap {gap : Text} (h : IsGap gap) : skip gap = [] := by
  have happend := skip_append h []
  rw [List.append_nil] at happend
  exact happend

/-! ## Strings -/

/-- Every escape with a letter is known to the parser, takes no digits and means no half of a
surrogate pair. -/
theorem shortEscape?_of_mem {letter meant : Char} (h : (letter, meant) ∈ letterEscapes) :
    shortEscape? letter = some meant ∧ letter ≠ 'u' ∧ isLowSurrogate meant.toNat = false := by
  have hletters : ∀ escape ∈ letterEscapes, shortEscape? escape.1 = some escape.2 ∧
      escape.1 ≠ 'u' ∧ isLowSurrogate escape.2.toNat = false := by decide
  exact hletters _ h

/-- Four digits of either case are read as the code point that they spell. -/
theorem hexQuad?_eq {a b c d : Char} {a' b' c' d' : Nat} (ha : Hex.IsDigit a' a)
    (hb : Hex.IsDigit b' b) (hc : Hex.IsDigit c' c) (hd : Hex.IsDigit d' d) :
    hexQuad? a b c d = some (0x1000 * a' + 0x100 * b' + 0x10 * c' + d') := by
  rw [hexQuad?, Hex.value?_eq_some_iff.mpr ha, Hex.value?_eq_some_iff.mpr hb,
    Hex.value?_eq_some_iff.mpr hc, Hex.value?_eq_some_iff.mpr hd]
  rfl

/-- Characters that an escape has used up are passed over. -/
theorem stringTail?_used (used : Text) (rest : Text) :
    stringTail? used.length (used ++ rest) = stringTail? 0 rest := by
  induction used with
  | nil => rfl
  | cons ch used ih => exact ih

/-- A character that needs no escape stands for itself. -/
theorem stringTail?_plain {ch : Char} (hcontrol : 0x20 ≤ ch.toNat) (hquote : ch ≠ '"')
    (hbackslash : ch ≠ '\\') (rest : Text) :
    stringTail? 0 (ch :: rest) =
      (stringTail? 0 rest).map fun (text, rest) => (ch :: text, rest) := by
  rw [stringTail?]
  · rw [if_neg (by omega)]
    cases stringTail? 0 rest <;> rfl
  · exact hquote
  · exact hbackslash

/-- An escape that means a character is read as the character. -/
theorem stringTail?_escape {used : Text} {meant : Char}
    (h : escape? (used ++ rest) = some (meant, used.length)) :
    stringTail? 0 ('\\' :: (used ++ rest)) =
      (stringTail? 0 rest).map fun (text, rest) => (meant :: text, rest) := by
  rw [stringTail?, h]
  show (stringTail? used.length (used ++ rest) >>= _) = _
  rw [stringTail?_used]
  cases stringTail? 0 rest <;> rfl

/-- An escape that means nothing makes the string a refused one. -/
theorem stringTail?_of_escape?_eq_none (h : escape? rest = none) :
    stringTail? 0 ('\\' :: rest) = none := by
  rw [stringTail?, h]
  rfl

/-- An escape with a letter is read as what the letter stands for. -/
theorem escape?_letter {letter meant : Char} (h : (letter, meant) ∈ letterEscapes) (rest : Text) :
    escape? (letter :: rest) = some (meant, 1) := by
  obtain ⟨hshort, hne, -⟩ := shortEscape?_of_mem h
  unfold escape?
  split
  · next heq => exact absurd (List.cons.inj heq).1 hne
  · next heq =>
    obtain ⟨rfl, -⟩ := List.cons.inj heq
    rw [hshort]
    rfl
  · next heq => cases heq

section Quad

variable {a b c d : Char} {point : Nat} (hquad : hexQuad? a b c d = some point)
include hquad

/-- An escape with digits that is no half of a surrogate pair is read as its character. -/
theorem escape?_quad (hhigh : isHighSurrogate point = false) (hlow : isLowSurrogate point = false) :
    escape? ('u' :: a :: b :: c :: d :: rest) = some (Char.ofNat point, 5) := by
  simp [escape?, hquad, hhigh, hlow]

/-- The second half of a surrogate pair is refused as an escape of its own. -/
theorem escape?_low (hhigh : isHighSurrogate point = false) (hlow : isLowSurrogate point = true) :
    escape? ('u' :: a :: b :: c :: d :: rest) = none := by
  simp [escape?, hquad, hhigh, hlow]

/-- Behind the first half of a surrogate pair, digits are read together with it or refused. -/
theorem escape?_pair (hhigh : isHighSurrogate point = true) {e f g h : Char} {low : Nat}
    (hnext : hexQuad? e f g h = some low) :
    escape? ('u' :: a :: b :: c :: d :: '\\' :: 'u' :: e :: f :: g :: h :: rest) =
      if isLowSurrogate low then some (surrogatePair point low, 11) else none := by
  simp [escape?, hquad, hhigh, hnext]

/-- The first half of a surrogate pair is refused if no escape of digits stands behind it. -/
theorem escape?_high (hhigh : isHighSurrogate point = true)
    (hrest : ∀ behind, rest ≠ '\\' :: 'u' :: behind) :
    escape? ('u' :: a :: b :: c :: d :: rest) = none := by
  simp only [escape?, hquad, Option.bind_eq_bind, Option.bind_some, hhigh, if_true]
  split
  · next e f g h behind => exact absurd rfl (hrest _)
  · rfl

end Quad

/-- A string is read up to its closing quote, and the half of a surrogate pair that stands alone
makes it mean nothing. -/
theorem stringTail?_eq {text : Text} {points : List Nat} (h : Spells text points) (rest : Text) :
    stringTail? 0 (text ++ '"' :: rest) = (text? points).map fun text => (text, rest) := by
  cases h with
  | nil => rfl
  | plain hcontrol hquote hbackslash h =>
    rw [List.cons_append, stringTail?_plain hcontrol hquote hbackslash, stringTail?_eq h,
      text?_toNat_cons, Option.map_map, Option.map_map]
    rfl
  | @letter letter meant text points hmem h =>
    have hescape : escape? ([letter] ++ (text ++ '"' :: rest)) = some (meant, 1) :=
      escape?_letter hmem _
    rw [text?_toNat_cons, Option.map_map]
    show stringTail? 0 ('\\' :: ([letter] ++ (text ++ '"' :: rest))) = _
    rw [stringTail?_escape hescape, stringTail?_eq h, Option.map_map]
    rfl
  | @digits a b c d a' b' c' d' text points ha hb hc hd h =>
    have hquad := hexQuad?_eq ha hb hc hd
    generalize 0x1000 * a' + 0x100 * b' + 0x10 * c' + d' = point at hquad
    cases hhigh : isHighSurrogate point with
    | false =>
      cases hlow : isLowSurrogate point with
      | false =>
        have hescape : escape? (['u', a, b, c, d] ++ (text ++ '"' :: rest)) =
            some (Char.ofNat point, 5) := escape?_quad hquad hhigh hlow
        rw [text?_cons_of_not_isSurrogate hhigh hlow, Option.map_map]
        show stringTail? 0 ('\\' :: (['u', a, b, c, d] ++ (text ++ '"' :: rest))) = _
        rw [stringTail?_escape hescape, stringTail?_eq h, Option.map_map]
        rfl
      | true =>
        rw [text?_cons_of_isLowSurrogate hhigh hlow]
        exact stringTail?_of_escape?_eq_none (escape?_low hquad hhigh hlow)
    | true =>
      -- what the half means depends on what is spelled behind it
      cases h with
      | nil =>
        rw [text?_cons_of_isHighSurrogate hhigh (by simp)]
        exact stringTail?_of_escape?_eq_none (escape?_high hquad hhigh (by simp))
      | @plain ch text points hcontrol hquote hbackslash h =>
        have hnext : ∀ next ∈ (ch.toNat :: points).head?, isLowSurrogate next = false := by
          simp [(not_isSurrogate_toNat ch).2]
        rw [text?_cons_of_isHighSurrogate hhigh hnext]
        exact stringTail?_of_escape?_eq_none (escape?_high hquad hhigh (by simp [hbackslash]))
      | @letter letter meant text points hmem h =>
        obtain ⟨-, hne, hlow⟩ := shortEscape?_of_mem hmem
        rw [text?_cons_of_isHighSurrogate hhigh (by simp [hlow])]
        exact stringTail?_of_escape?_eq_none (escape?_high hquad hhigh (by simp [hne]))
      | @digits e f g h' e' f' g' h'' text points he hf hg hh h =>
        have hquad' := hexQuad?_eq he hf hg hh
        generalize 0x1000 * e' + 0x100 * f' + 0x10 * g' + h'' = point' at hquad'
        have hpair : escape? (['u', a, b, c, d, '\\', 'u', e, f, g, h'] ++ (text ++ '"' :: rest)) =
            if isLowSurrogate point' then some (surrogatePair point point', 11) else none :=
          escape?_pair hquad hhigh hquad'
        cases hlow : isLowSurrogate point' with
        | false =>
          rw [hlow] at hpair
          rw [text?_cons_of_isHighSurrogate hhigh (by simp [hlow])]
          exact stringTail?_of_escape?_eq_none hpair
        | true =>
          rw [hlow] at hpair
          rw [text?_pair hhigh hlow, Option.map_map]
          show stringTail? 0 ('\\' :: (['u', a, b, c, d, '\\', 'u', e, f, g, h'] ++
            (text ++ '"' :: rest))) = _
          rw [stringTail?_escape hpair, stringTail?_eq h, Option.map_map]
          rfl

/-- A string is read up to its closing quote, as what its code points mean. -/
theorem string?_eq {text : Text} {points : List Nat} (h : Spells text points) (rest : Text) :
    string? (text ++ '"' :: rest) =
      (text? points).map fun text => (String.ofList text, rest) := by
  rw [string?, stringTail?_eq h]
  cases text? points <;> rfl

/-! ## Numbers -/

/-- Digits are read up to the first character that is none. -/
theorem digits?_eq {run : Text} (h : IsDigits run) (hrest : ∀ ch ∈ rest.head?, ch.isDigit = false) :
    digits? (run ++ rest) = some (run, rest) := by
  have htake : rest.takeWhile Char.isDigit = [] := by
    cases rest with
    | nil => rfl
    | cons ch rest => rw [List.takeWhile_cons, hrest ch rfl]; rfl
  have hdrop : rest.dropWhile Char.isDigit = rest := by
    cases rest with
    | nil => rfl
    | cons ch rest => rw [List.dropWhile_cons, hrest ch rfl]; rfl
  rw [digits?, List.takeWhile_append_of_pos h.2, List.dropWhile_append_of_pos h.2, htake, hdrop,
    List.append_nil]
  obtain ⟨ch, run, rfl⟩ := List.exists_cons_of_ne_nil h.1
  rfl

/-- A run has a first digit. -/
theorem IsDigits.exists_cons {run : Text} (h : IsDigits run) :
    ∃ ch rest, run = ch :: rest ∧ ch.isDigit = true := by
  obtain ⟨ch, rest, rfl⟩ := List.exists_cons_of_ne_nil h.1
  exact ⟨ch, rest, rfl, h.2 ch List.mem_cons_self⟩

/-- A whole number is read to its end: a zero stands by itself, other digits go on. -/
theorem whole?_eq {whole : Text} (h : IsWhole whole)
    (hrest : ∀ ch ∈ rest.head?, ch.isDigit = false) :
    whole? (whole ++ rest) = some (whole, rest) := by
  rcases h with rfl | ⟨hdigits, hzero⟩
  · rfl
  · rw [← digits?_eq hdigits hrest]
    obtain ⟨ch, run, rfl⟩ := List.exists_cons_of_ne_nil hdigits.1
    unfold whole?
    split
    · next heq =>
      obtain ⟨rfl, -⟩ := List.cons.inj heq
      exact absurd rfl hzero
    · rfl

/-- A fraction is read to its end, and so is a missing one. -/
theorem fraction?_eq {fraction : Text} (h : IsFraction fraction)
    (hrest : ∀ ch ∈ rest.head?, ch.isDigit = false ∧ ch ≠ '.') :
    fraction? (fraction ++ rest) = some (fraction, rest) := by
  rcases h with rfl | ⟨run, hrun, rfl⟩
  · unfold fraction?
    split
    · next heq =>
      rw [List.nil_append] at heq
      exact absurd rfl (hrest '.' (by rw [heq]; rfl)).2
    · rfl
  · rw [List.cons_append, fraction?, digits?_eq hrun fun ch hmem => (hrest ch hmem).1]
    rfl

theorem sign_eq {mark run : Text} (h : IsSign mark) (hrun : IsDigits run) (rest : Text) :
    sign (mark ++ (run ++ rest)) = (mark, run ++ rest) := by
  rcases h with rfl | rfl | rfl
  · obtain ⟨ch, run, rfl, hch⟩ := hrun.exists_cons
    unfold sign
    split
    · next heq =>
      obtain ⟨rfl, -⟩ := List.cons.inj heq
      exact absurd hch (by decide)
    · next heq =>
      obtain ⟨rfl, -⟩ := List.cons.inj heq
      exact absurd hch (by decide)
    · rfl
  · rfl
  · rfl

/-- An exponent is read to its end, and so is a missing one. -/
theorem exponent?_eq {exponent : Text} (h : IsExponent exponent)
    (hrest : ∀ ch ∈ rest.head?, ch.isDigit = false ∧ ch ≠ 'e' ∧ ch ≠ 'E') :
    exponent? (exponent ++ rest) = some (exponent, rest) := by
  rcases h with rfl | ⟨letter, mark, run, hletter, hmark, hrun, rfl⟩
  · cases rest with
    | nil => rfl
    | cons ch rest =>
      obtain ⟨-, hlower, hupper⟩ := hrest ch rfl
      simp [exponent?, hlower, hupper]
  · rw [List.cons_append, exponent?, if_pos (by simpa using hletter), List.append_assoc,
      sign_eq hmark hrun]
    show (digits? (run ++ rest) >>= _) = _
    rw [digits?_eq hrun fun ch hmem => (hrest ch hmem).1]
    rfl

/-- What may stand behind a value: a blank, a comma, a closing bracket or brace, or nothing. -/
def EndsValue (rest : Text) : Prop :=
  ∀ ch ∈ rest.head?, isSpace ch = true ∨ ch = ',' ∨ ch = ']' ∨ ch = '}'

/-- What may stand behind a value is no part of a number. -/
theorem EndsValue.not_number (h : EndsValue rest) :
    ∀ ch ∈ rest.head?, ch.isDigit = false ∧ ch ≠ '.' ∧ ch ≠ 'e' ∧ ch ≠ 'E' := by
  intro ch hmem
  have hch := h ch hmem
  rw [isSpace_iff] at hch
  rcases hch with (rfl | rfl | rfl | rfl) | rfl | rfl | rfl <;> decide

/-- What holds for the first characters of two texts holds for that of both in a row. -/
theorem head?_append_of_forall {front : Text} {p : Char → Prop}
    (hfront : ∀ ch ∈ front.head?, p ch) (hrest : ∀ ch ∈ rest.head?, p ch) :
    ∀ ch ∈ (front ++ rest).head?, p ch := by
  cases front with
  | nil => exact hrest
  | cons ch front => exact hfront

/-- A number is read as its own text, up to whatever ends a value. -/
theorem number?_eq {text : Text} (h : IsNumber text) (hrest : EndsValue rest) :
    number? (text ++ rest) = some (.number (String.ofList text), rest) := by
  obtain ⟨minus, whole, fraction, exponent, hminus, hwhole, hfraction, hexponent, rfl⟩ := h
  have hend := hrest.not_number
  -- each part ends where the next one starts
  have hbehindFraction : ∀ ch ∈ (exponent ++ rest).head?, ch.isDigit = false ∧ ch ≠ '.' := by
    apply head?_append_of_forall
    · rcases hexponent with rfl | ⟨letter, mark, run, rfl | rfl, -, -, rfl⟩ <;> simp
    · exact fun ch hmem => ⟨(hend ch hmem).1, (hend ch hmem).2.1⟩
  have hbehindWhole : ∀ ch ∈ (fraction ++ (exponent ++ rest)).head?, ch.isDigit = false := by
    apply head?_append_of_forall
    · rcases hfraction with rfl | ⟨run, -, rfl⟩ <;> simp
    · exact fun ch hmem => (hbehindFraction ch hmem).1
  have hparts : (do
      let (whole, text) ← whole? (whole ++ (fraction ++ (exponent ++ rest)))
      let (fraction, text) ← fraction? text
      let (exponent, text) ← exponent? text
      return (Json.number (String.ofList (minus ++ whole ++ fraction ++ exponent)), text)) =
        some (Json.number (String.ofList (minus ++ (whole ++ (fraction ++ exponent)))), rest) := by
    rw [whole?_eq hwhole hbehindWhole]
    show (fraction? (fraction ++ (exponent ++ rest)) >>= _) = _
    rw [fraction?_eq hfraction hbehindFraction]
    show (exponent? (exponent ++ rest) >>= _) = _
    rw [exponent?_eq hexponent fun ch hmem => ⟨(hend ch hmem).1, (hend ch hmem).2.2⟩]
    simp only [List.append_assoc]
    rfl
  rw [← hparts]
  simp only [List.append_assoc]
  rcases hminus with rfl | rfl
  · -- without a sign the parser has to see that the first character is none
    have hdigit : ∃ ch run, whole = ch :: run ∧ ch ≠ '-' := by
      rcases hwhole with rfl | ⟨hdigits, -⟩
      · exact ⟨'0', [], rfl, by decide⟩
      · obtain ⟨ch, run, rfl, hch⟩ := hdigits.exists_cons
        exact ⟨ch, run, rfl, fun heq => absurd hch (by rw [heq]; decide)⟩
    obtain ⟨ch, run, rfl, hne⟩ := hdigit
    simp [number?, hne]
  · simp [number?]

/-! ## First characters -/

theorem isSpace_eq_false_of_isDigit {ch : Char} (h : ch.isDigit = true) : isSpace ch = false := by
  rw [Bool.eq_false_iff, ne_eq, isSpace_iff]
  rintro (rfl | rfl | rfl | rfl) <;> exact absurd h (by decide)

/-- A number begins with a minus sign or a digit. -/
theorem IsNumber.exists_cons {text : Text} (h : IsNumber text) :
    ∃ ch rest, text = ch :: rest ∧ (ch = '-' ∨ ch.isDigit = true) := by
  obtain ⟨minus, whole, fraction, exponent, hminus, hwhole, -, -, rfl⟩ := h
  rcases hminus with rfl | rfl
  · rcases hwhole with rfl | ⟨hdigits, -⟩
    · exact ⟨'0', _, rfl, .inr rfl⟩
    · obtain ⟨ch, run, rfl, hch⟩ := hdigits.exists_cons
      exact ⟨ch, _, rfl, .inr hch⟩
  · exact ⟨'-', _, rfl, .inl rfl⟩

/-- A value begins with a character that is no blank and no closing bracket. -/
theorem IsValue.exists_cons {text : Text} {value : Option Json} (h : IsValue text value) :
    ∃ ch rest, text = ch :: rest ∧ isSpace ch = false ∧ ch ≠ ']' := by
  cases h with
  | null => exact ⟨_, _, rfl, rfl, by decide⟩
  | yes => exact ⟨_, _, rfl, rfl, by decide⟩
  | no => exact ⟨_, _, rfl, rfl, by decide⟩
  | number h =>
    obtain ⟨ch, rest, rfl, hch⟩ := h.exists_cons
    rcases hch with rfl | hdigit
    · exact ⟨_, _, rfl, rfl, by decide⟩
    · refine ⟨ch, rest, rfl, isSpace_eq_false_of_isDigit hdigit, ?_⟩
      rintro rfl
      exact absurd hdigit (by decide)
  | string h => exact ⟨_, _, rfl, rfl, by decide⟩
  | emptyArray h => exact ⟨_, _, rfl, rfl, by decide⟩
  | array h => exact ⟨_, _, rfl, rfl, by decide⟩
  | object h => cases h <;> exact ⟨_, _, rfl, rfl, by decide⟩

/-- Something other than a closing bracket stands behind the blanks in front of a value. -/
theorem IsElement.skip_append {text : Text} {value : Option Json} (h : IsElement text value)
    (rest : Text) : ∃ ch behind, skip (text ++ rest) = ch :: behind ∧ ch ≠ ']' := by
  obtain ⟨hfront, -, hvalue⟩ := h
  obtain ⟨ch, behind, rfl, hspace, hne⟩ := hvalue.exists_cons
  rw [List.append_assoc, Json.skip_append hfront]
  exact ⟨ch, _, skip_cons hspace _, hne⟩

theorem IsItems.skip_append {text : Text} {items : Option (List Json)} (h : IsItems text items)
    (rest : Text) : ∃ ch behind, skip (text ++ rest) = ch :: behind ∧ ch ≠ ']' := by
  cases h with
  | one h => exact h.skip_append rest
  | cons h hrest =>
    rw [List.append_assoc]
    exact h.skip_append _

theorem IsMember.skip_append {text : Text} {member : Member} (h : IsMember text member)
    (rest : Text) : ∃ behind, skip (text ++ rest) = '"' :: behind := by
  obtain ⟨hfront, -, -, -⟩ := h
  rw [List.append_assoc, Json.skip_append hfront]
  exact ⟨_, skip_cons rfl _⟩

/-- A quote stands behind the blanks in front of the members of an object. -/
theorem IsMembers.skip_append {text : Text} {members : List Member} (h : IsMembers text members)
    (rest : Text) : ∃ behind, skip (text ++ rest) = '"' :: behind := by
  cases h with
  | one h => exact h.skip_append rest
  | cons h hrest =>
    rw [List.append_assoc]
    exact h.skip_append _

/-! ## Values -/

theorem meant?_cons (member : Member) (members : List Member) :
    meant? (member :: members) = (do
      let name ← member.1
      let value ← member.2
      let members ← meant? members
      return (name, value) :: members) := by
  rw [meant?, List.mapM_cons, bind_assoc]
  obtain ⟨name, value⟩ := member
  cases name <;> cases value <;> rfl

theorem value?_append {gap : Text} (h : IsGap gap) (depth : Nat) (text : Text) :
    value? depth (gap ++ text) = value? depth text := by
  cases depth with
  | zero => rfl
  | succ depth => rw [value?, value?, skip_append h]

/-- A value that opens no bracket is read as an atom. -/
theorem value?_atom {ch : Char} (hspace : isSpace ch = false) (hbracket : ch ≠ '[')
    (hbrace : ch ≠ '{') (depth : Nat) (rest : Text) :
    value? (depth + 1) (ch :: rest) = atom? (ch :: rest) := by
  rw [value?, skip_cons hspace]
  split
  · next heq => exact absurd (List.cons.inj heq).1 hbracket
  · next heq => exact absurd (List.cons.inj heq).1 hbrace
  · rfl

theorem value?_string (depth : Nat) (text : Text) :
    value? (depth + 1) ('"' :: text) =
      (string? text).map fun (value, rest) => (.string value, rest) :=
  value?_atom rfl (by decide) (by decide) depth _

/-- An atom that begins as a number does is read as one. -/
theorem atom?_number {text : Text} (h : IsNumber text) (rest : Text) :
    atom? (text ++ rest) = number? (text ++ rest) := by
  obtain ⟨ch, behind, rfl, hch⟩ := h.exists_cons
  have hne : ch ≠ '"' ∧ ch ≠ 'n' ∧ ch ≠ 't' ∧ ch ≠ 'f' := by
    refine ⟨?_, ?_, ?_, ?_⟩ <;> rintro rfl <;> exact absurd hch (by decide)
  unfold atom?
  split
  · next heq => exact absurd (List.cons.inj heq).1 hne.1
  · next heq => exact absurd (List.cons.inj heq).1 hne.2.1
  · next heq => exact absurd (List.cons.inj heq).1 hne.2.2.1
  · next heq => exact absurd (List.cons.inj heq).1 hne.2.2.2
  · rfl

/-! ## Brackets -/

section Brackets

variable {depth : Nat} {text : Text}

theorem value?_emptyArray (h : skip text = ']' :: rest) :
    value? (depth + 1) ('[' :: text) = some (.array [], rest) := by
  rw [value?, skip_cons rfl]
  simp [h]

/-- A bracket that is not closed at once is read on as the items of an array. -/
theorem value?_array {ch : Char} {behind : Text} (h : skip text = ch :: behind) (hne : ch ≠ ']') :
    value? (depth + 1) ('[' :: text) =
      (items? depth text).map fun (items, rest) => (.array items, rest) := by
  rw [value?, skip_cons rfl]
  simp [h, hne]

theorem value?_emptyObject (h : skip text = '}' :: rest) :
    value? (depth + 1) ('{' :: text) = some (.object [], rest) := by
  rw [value?, skip_cons rfl]
  simp [h]

/-- A brace that is not closed at once is read on as the members of an object. -/
theorem value?_object {ch : Char} {behind : Text} (h : skip text = ch :: behind) (hne : ch ≠ '}') :
    value? (depth + 1) ('{' :: text) =
      (members? depth text).map fun (members, rest) => (.object members, rest) := by
  rw [value?, skip_cons rfl]
  simp [h, hne]

/-- Behind an item a bracket ends the array and a comma goes on to the next item. -/
theorem items?_of_value? {item : Json} {behind : Text}
    (h : value? depth text = some (item, behind)) :
    items? (depth + 1) text =
      match skip behind with
      | ']' :: rest => return ([item], rest)
      | ',' :: rest => do
        let (items, rest) ← items? depth rest
        return (item :: items, rest)
      | _ => none := by
  rw [items?, h]
  rfl

/-- A name, a colon and a value are read as a member, behind which a brace ends the object and a
comma goes on. -/
theorem members?_of_string? {name : String} {quoted behind text' : Text}
    (hquote : skip text = '"' :: quoted) (hname : string? quoted = some (name, behind))
    (hcolon : skip behind = ':' :: text') :
    members? (depth + 1) text = (do
      let (value, rest) ← value? depth text'
      match skip rest with
      | '}' :: rest => return ([(name, value)], rest)
      | ',' :: rest =>
        let (members, rest) ← members? depth rest
        return ((name, value) :: members, rest)
      | _ => none) := by
  rw [members?, hquote]
  simp only [hname, Option.bind_eq_bind, Option.bind_some]
  split
  · next heq =>
    rw [hcolon] at heq
    obtain rfl := (List.cons.inj heq).2
    rfl
  · next hne => exact absurd hcolon (hne _)

/-- A member whose name means nothing makes the object a refused one. -/
theorem members?_of_string?_eq_none {quoted : Text} (hquote : skip text = '"' :: quoted)
    (hname : string? quoted = none) : members? (depth + 1) text = none := by
  rw [members?, hquote]
  simp only [hname, Option.bind_eq_bind, Option.bind_none]

end Brackets

/-- With this depth the parser reads all texts of the grammar that are not too long for it: every
bracket spends two of the depth and has two characters, and every item or member spends one and has
one. -/
structure Reads (depth : Nat) : Prop where
  value {text rest : Text} {value : Option Json} (h : IsValue text value)
    (hdepth : 2 * text.length ≤ depth) (hrest : EndsValue rest) :
    value? depth (text ++ rest) = value.map fun value => (value, rest)
  items {text : Text} {items : Option (List Json)} (h : IsItems text items)
    (hdepth : 2 * text.length + 1 ≤ depth) (rest : Text) :
    items? depth (text ++ ']' :: rest) = items.map fun items => (items, rest)
  members {text : Text} {members : List Member} (h : IsMembers text members)
    (hdepth : 2 * text.length + 1 ≤ depth) (rest : Text) :
    members? depth (text ++ '}' :: rest) = (meant? members).map fun members => (members, rest)

namespace Reads

variable {depth : Nat}

/-- The blanks behind a value are left to whoever reads on. -/
theorem element (hreads : Reads depth) {text rest : Text} {value : Option Json}
    (h : IsElement text value) (hdepth : 2 * text.length ≤ depth) (hrest : EndsValue rest) :
    ∃ behind, IsGap behind ∧
      value? depth (text ++ rest) = value.map fun value => (value, behind ++ rest) := by
  obtain @⟨front, text, behind, value, hfront, hbehind, hvalue⟩ := h
  -- a value ends at the blanks behind it, or at what stands behind them
  have hends : EndsValue (behind ++ rest) :=
    head?_append_of_forall
      (fun ch hmem => .inl (isSpace_iff.mpr (hbehind ch (List.mem_of_mem_head? hmem)))) hrest
  have hlength : 2 * text.length ≤ depth := by
    rw [List.length_append, List.length_append] at hdepth
    omega
  refine ⟨behind, hbehind, ?_⟩
  rw [List.append_assoc, value?_append hfront, List.append_assoc, hreads.value hvalue hlength hends]

/-- An item of the grammar is read as what it means, and what stands behind it tells whether another
item follows. -/
theorem items?_of_isElement (hreads : Reads depth) {text rest : Text} {item : Option Json}
    (h : IsElement text item) (hdepth : 2 * text.length ≤ depth) (hrest : EndsValue rest)
    (hskip : skip rest = rest) :
    items? (depth + 1) (text ++ rest) = (do
      let item ← item
      match rest with
      | ']' :: rest => return ([item], rest)
      | ',' :: rest =>
        let (items, rest) ← items? depth rest
        return (item :: items, rest)
      | _ => none) := by
  obtain ⟨behind, hbehind, hvalue⟩ := hreads.element h hdepth hrest
  cases item with
  | none =>
    rw [items?, hvalue]
    rfl
  | some item =>
    rw [items?_of_value? hvalue, skip_append hbehind, hskip]
    rfl

/-- A member of the grammar is read as what it means, the name first, and what stands behind it
tells whether another member follows. -/
theorem members?_of_isMember (hreads : Reads depth) {text rest : Text} {member : Member}
    (h : IsMember text member) (hdepth : 2 * text.length ≤ depth) (hrest : EndsValue rest)
    (hskip : skip rest = rest) :
    members? (depth + 1) (text ++ rest) = (do
      let name ← member.1
      let value ← member.2
      match rest with
      | '}' :: rest => return ([(name, value)], rest)
      | ',' :: rest =>
        let (members, rest) ← members? depth rest
        return ((name, value) :: members, rest)
      | _ => none) := by
  obtain @⟨front, name, behind, text, points, value, hfront, hname, hbehind, helement⟩ := h
  have hlength : 2 * text.length ≤ depth := by
    simp only [List.length_append, List.length_cons] at hdepth
    omega
  obtain ⟨behind', hbehind', hvalue⟩ := hreads.element helement hlength hrest
  have hquote : skip ((front ++ '"' :: (name ++ '"' :: (behind ++ ':' :: text))) ++ rest) =
      '"' :: (name ++ '"' :: (behind ++ ':' :: (text ++ rest))) := by
    rw [List.append_assoc, skip_append hfront, List.cons_append, skip_cons rfl]
    simp only [List.append_assoc, List.cons_append]
  have hname' := string?_eq hname (behind ++ ':' :: (text ++ rest))
  have hcolon : skip (behind ++ ':' :: (text ++ rest)) = ':' :: (text ++ rest) := by
    rw [skip_append hbehind, skip_cons rfl]
  cases hmeant : text? points with
  | none =>
    rw [hmeant, Option.map_none] at hname'
    rw [members?_of_string?_eq_none hquote hname']
    rfl
  | some meant =>
    rw [hmeant, Option.map_some] at hname'
    rw [members?_of_string? hquote hname' hcolon, hvalue]
    cases value with
    | none => rfl
    | some value =>
      simp only [Option.map_some, Option.bind_eq_bind, Option.bind_some, skip_append hbehind',
        hskip]

/-- At no depth there is nothing to read, for every text of the grammar has a character. -/
theorem zero : Reads 0 where
  value h hdepth _ := by
    obtain ⟨ch, rest, rfl, -⟩ := h.exists_cons
    simp at hdepth
  items _ hdepth _ := by omega
  members _ hdepth _ := by omega

/-- A value is read at one depth more, by the kind of value that it is. -/
theorem value_succ (hreads : Reads depth) {text rest : Text} {value : Option Json}
    (h : IsValue text value) (hdepth : 2 * text.length ≤ depth + 1) (hrest : EndsValue rest) :
    value? (depth + 1) (text ++ rest) = value.map fun value => (value, rest) := by
  cases h with
  | null => exact value?_atom rfl (by decide) (by decide) depth _
  | yes => exact value?_atom rfl (by decide) (by decide) depth _
  | no => exact value?_atom rfl (by decide) (by decide) depth _
  | number h =>
    obtain ⟨ch, behind, htext, hch⟩ := h.exists_cons
    have hatom : value? (depth + 1) (text ++ rest) = atom? (text ++ rest) := by
      rw [htext]
      rcases hch with rfl | hdigit
      · exact value?_atom rfl (by decide) (by decide) depth _
      · refine value?_atom (isSpace_eq_false_of_isDigit hdigit) ?_ ?_ depth _ <;>
          rintro rfl <;> exact absurd hdigit (by decide)
    rw [hatom, atom?_number h, number?_eq h hrest, Option.map_some]
  | @string text points h =>
    rw [List.cons_append, List.append_assoc, List.singleton_append, value?_string, string?_eq h,
      Option.map_map, Option.map_map]
    rfl
  | @emptyArray gap h =>
    have hskip : skip (gap ++ ']' :: rest) = ']' :: rest := by rw [skip_append h, skip_cons rfl]
    rw [List.cons_append, List.append_assoc, List.singleton_append, value?_emptyArray hskip]
    rfl
  | @array text items h =>
    have hlength : 2 * text.length + 1 ≤ depth := by
      simp only [List.length_cons, List.length_append, List.length_nil] at hdepth
      omega
    obtain ⟨ch, behind, hskip, hne⟩ := h.skip_append (']' :: rest)
    rw [List.cons_append, List.append_assoc, List.singleton_append, value?_array hskip hne,
      hreads.items h hlength rest, Option.map_map, Option.map_map]
    rfl
  | object h =>
    -- a brace is closed at once, or a quote stands behind it
    cases h with
    | @empty gap h =>
      have hskip : skip (gap ++ '}' :: rest) = '}' :: rest := by rw [skip_append h, skip_cons rfl]
      rw [List.cons_append, List.append_assoc, List.singleton_append, value?_emptyObject hskip]
      rfl
    | @members text members h =>
      have hlength : 2 * text.length + 1 ≤ depth := by
        simp only [List.length_cons, List.length_append, List.length_nil] at hdepth
        omega
      obtain ⟨behind, hskip⟩ := h.skip_append ('}' :: rest)
      rw [List.cons_append, List.append_assoc, List.singleton_append,
        value?_object hskip (by decide), hreads.members h hlength rest, Option.map_map,
        Option.map_map]
      rfl

/-- The items of an array are read at one depth more, one item and then the others. -/
theorem items_succ (hreads : Reads depth) {text : Text} {items : Option (List Json)}
    (h : IsItems text items) (hdepth : 2 * text.length + 1 ≤ depth + 1) (rest : Text) :
    items? (depth + 1) (text ++ ']' :: rest) = items.map fun items => (items, rest) := by
  cases h with
  | @one text item h =>
    have hends : EndsValue (']' :: rest) := by simp [EndsValue]
    rw [hreads.items?_of_isElement h (by omega) hends (skip_cons rfl _)]
    cases item <;> rfl
  | @cons text behind item items h hbehind =>
    rw [List.length_append, List.length_cons] at hdepth
    have hends : EndsValue (',' :: (behind ++ ']' :: rest)) := by simp [EndsValue]
    rw [List.append_assoc, List.cons_append,
      hreads.items?_of_isElement h (by omega) hends (skip_cons rfl _)]
    cases item with
    | none => rfl
    | some item =>
      show (items? depth (behind ++ ']' :: rest) >>= _) = _
      rw [hreads.items hbehind (by omega) rest]
      cases items <;> rfl

/-- The members of an object are read at one depth more, one member and then the others. -/
theorem members_succ (hreads : Reads depth) {text : Text} {members : List Member}
    (h : IsMembers text members) (hdepth : 2 * text.length + 1 ≤ depth + 1) (rest : Text) :
    members? (depth + 1) (text ++ '}' :: rest) =
      (meant? members).map fun members => (members, rest) := by
  cases h with
  | @one text member h =>
    have hends : EndsValue ('}' :: rest) := by simp [EndsValue]
    rw [hreads.members?_of_isMember h (by omega) hends (skip_cons rfl _), meant?_cons]
    obtain ⟨name, value⟩ := member
    cases name <;> cases value <;> rfl
  | @cons text behind member members h hbehind =>
    rw [List.length_append, List.length_cons] at hdepth
    have hends : EndsValue (',' :: (behind ++ '}' :: rest)) := by simp [EndsValue]
    rw [List.append_assoc, List.cons_append,
      hreads.members?_of_isMember h (by omega) hends (skip_cons rfl _), meant?_cons]
    obtain ⟨name, value⟩ := member
    cases name with
    | none => rfl
    | some name =>
      cases value with
      | none => rfl
      | some value =>
        show (members? depth (behind ++ '}' :: rest) >>= _) = _
        rw [hreads.members hbehind (by omega) rest]
        cases meant? members <;> rfl

end Reads

/-- At every depth the parser reads the texts of the grammar that are short enough for it. -/
theorem reads (depth : Nat) : Reads depth := by
  induction depth with
  | zero => exact .zero
  | succ depth ih => exact ⟨ih.value_succ, ih.items_succ, ih.members_succ⟩

/-- A text of the grammar is parsed as what it means, and refused if it means nothing. -/
theorem parse?_eq {text : Text} {value : Option Json} (h : IsElement text value) :
    parse? text = value := by
  have hends : EndsValue [] := by simp [EndsValue]
  obtain ⟨behind, hbehind, hvalue⟩ :=
    (reads (2 * text.length + 2)).element h (by omega) hends
  rw [List.append_nil, List.append_nil] at hvalue
  rw [parse?, hvalue]
  cases value with
  | none => rfl
  | some value =>
    show (if (skip behind).isEmpty then some value else none) = some value
    rw [skip_gap hbehind]
    rfl

end Json
end SaveNames
