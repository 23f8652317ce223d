import Mathlib.Data.List.Forall2
import Mathlib.Data.List.TakeWhile
import SaveNames.Proofs.Hex

/-!
# The grammar of hex dumps

What a dump is, told without the reader. A text falls into *runs*, its longest pieces without a
separator (`IsRuns`). A run is a *body*, perhaps with a marker in front (`IsBody`). A body is to
consist of digit pairs (`IsPairs`), and these spell bytes (`Spells`).

**The reader accepts exactly the texts all of whose runs have such a body**, it gives the bytes
that they spell one behind the other, and otherwise it names the first run that has not
(`parse_grammar`). No run reaches over a separator, so a separator anywhere in the text also cuts
the reading in two.

**The printer writes a normal form**: of all dumps of the same bytes it writes the one that has
upper-case pairs with single spaces between (`print_normal_form`).
-/

namespace SaveNames
namespace Hex

/-! ## Digit pairs -/

/-- The character is the digit of this value, in either case. -/
def IsDigit (value : Nat) (ch : Char) : Prop :=
  value < 16 ∧ (ch = HexDigit.upper value ∨ ch = HexDigit.lower value)

instance (value : Nat) (ch : Char) : Decidable (IsDigit value ch) :=
  inferInstanceAs (Decidable (_ ∧ _))

/-- The body is an even number of digits, perhaps none. -/
def IsPairs (body : Text) : Prop :=
  body.length % 2 = 0 ∧ ∀ ch ∈ body, ∃ value, IsDigit value ch

/-- The digits of the body spell the bytes, two digits for each, the high one first. -/
inductive Spells : Text → Bytes → Prop
  | nil : Spells [] []
  | cons {high low : Char} {byte : UInt8} {rest : Text} {bytes : Bytes}
    (hhigh : IsDigit (byte.toNat / 16) high) (hlow : IsDigit (byte.toNat % 16) low) :
    Spells rest bytes → Spells (high :: low :: rest) (byte :: bytes)

theorem value?_lower : ∀ value < 16, HexDigit.value? (HexDigit.lower value) = some value := by
  decide

/-- Whatever has a value as a digit is no greater than the letter f. -/
theorem toNat_lt_of_value? {value : Nat} {ch : Char} (h : HexDigit.value? ch = some value) :
    ch.toNat < 103 := by
  unfold HexDigit.value? at h
  simp only [Bool.and_eq_true, decide_eq_true_eq, Char.le_def, UInt32.le_iff_toNat_le] at h
  show ch.val.toNat < 103
  have hnine : '9'.val.toNat = 57 := rfl
  have hlower : 'f'.val.toNat = 102 := rfl
  have hupper : 'F'.val.toNat = 70 := rfl
  split at h
  · omega
  split at h
  · omega
  split at h
  · omega
  · simp at h

/-- The digits of both cases are all that has a value. -/
theorem value?_eq_some_iff {value : Nat} {ch : Char} :
    HexDigit.value? ch = some value ↔ IsDigit value ch := by
  constructor
  · intro h
    -- a digit is an ASCII character, and these can be tried one by one
    have hascii : ∀ code < 103, ∀ value ∈ HexDigit.value? (Char.ofNat code),
        IsDigit value (Char.ofNat code) := by decide +kernel
    have hdigit := hascii ch.toNat (toNat_lt_of_value? h)
    rw [Char.ofNat_toNat] at hdigit
    exact hdigit value h
  · rintro ⟨hlt, rfl | rfl⟩
    · exact value?_upper value hlt
    · exact value?_lower value hlt

/-- Two digits spell the byte that they are the halves of. -/
theorem Spells.cons_digits {high low : Nat} {high' low' : Char} {rest : Text} {bytes : Bytes}
    (hhigh : IsDigit high high') (hlow : IsDigit low low') (h : Spells rest bytes) :
    Spells (high' :: low' :: rest) (UInt8.ofNat (16 * high + low) :: bytes) := by
  have hhigh16 := hhigh.1
  have hlow16 := hlow.1
  have hbyte : (UInt8.ofNat (16 * high + low)).toNat = 16 * high + low :=
    UInt8.toNat_ofNat_of_lt' (show 16 * high + low < 256 by omega)
  have hdiv : (16 * high + low) / 16 = high := by omega
  have hmod : (16 * high + low) % 16 = low := by omega
  refine .cons ?_ ?_ h
  · rw [hbyte, hdiv]
    exact hhigh
  · rw [hbyte, hmod]
    exact hlow

/-- The reader of pairs accepts exactly the texts that spell some bytes, and returns these. -/
theorem pairs?_eq_some_iff {body : Text} {bytes : Bytes} :
    pairs? body = some bytes ↔ Spells body bytes := by
  constructor
  · intro h
    fun_induction pairs? body generalizing bytes with
    | case1 =>
      obtain rfl := Option.some.inj h
      exact .nil
    | case2 => simp at h
    | case3 high low rest ih =>
      simp only [Option.bind_eq_bind, Option.bind_eq_some_iff, Option.pure_def] at h
      obtain ⟨high', hhigh, low', hlow, bytes', hrest, hbytes⟩ := h
      obtain rfl := Option.some.inj hbytes
      exact .cons_digits (value?_eq_some_iff.mp hhigh) (value?_eq_some_iff.mp hlow) (ih hrest)
  · intro h
    induction h with
    | nil => rfl
    | @cons high low byte rest bytes hhigh hlow hrest ih =>
      have hvalue : 16 * (byte.toNat / 16) + byte.toNat % 16 = byte.toNat := Nat.div_add_mod _ 16
      rw [pairs?, value?_eq_some_iff.mpr hhigh, value?_eq_some_iff.mpr hlow, ih]
      show some (UInt8.ofNat (16 * (byte.toNat / 16) + byte.toNat % 16) :: bytes) = _
      rw [hvalue, UInt8.ofNat_toNat]

/-- Digit pairs can be taken off one at a time. -/
theorem isPairs_cons_iff {high low : Char} {rest : Text} :
    IsPairs (high :: low :: rest) ↔
      (∃ value, IsDigit value high) ∧ (∃ value, IsDigit value low) ∧ IsPairs rest := by
  have hlength : (high :: low :: rest).length % 2 = rest.length % 2 := by
    rw [List.length_cons, List.length_cons]
    omega
  simp only [IsPairs, hlength, List.forall_mem_cons]
  tauto

/-- Every even number of digits spells some bytes. -/
theorem exists_spells_iff {body : Text} : (∃ bytes, Spells body bytes) ↔ IsPairs body := by
  constructor
  · rintro ⟨bytes, h⟩
    induction h with
    | nil => exact ⟨rfl, by simp⟩
    | cons hhigh hlow _ ih => exact isPairs_cons_iff.mpr ⟨⟨_, hhigh⟩, ⟨_, hlow⟩, ih⟩
  · intro h
    -- two digits at a time, as the reader takes them
    fun_induction pairs? body with
    | case1 => exact ⟨[], .nil⟩
    | case2 => simp [IsPairs] at h
    | case3 high low rest ih =>
      obtain ⟨⟨high', hhigh⟩, ⟨low', hlow⟩, hrest⟩ := isPairs_cons_iff.mp h
      obtain ⟨bytes, hbytes⟩ := ih hrest
      exact ⟨_, .cons_digits hhigh hlow hbytes⟩

/-! ## Runs -/

/-- The runs of a text: its longest pieces without a separator, the empty ones left out. -/
inductive IsRuns : Text → List Text → Prop
  | nil : IsRuns [] []
  | separator {separator : Char} {rest : Text} {runs : List Text}
    (h : isSeparator separator = true) : IsRuns rest runs → IsRuns (separator :: rest) runs
  | run {run rest : Text} {runs : List Text} (hne : run ≠ [])
    (hrun : ∀ ch ∈ run, isSeparator ch = false)
    (hend : ∀ ch ∈ rest.head?, isSeparator ch = true) :
    IsRuns rest runs → IsRuns (run ++ rest) (run :: runs)

/-- The body of a run: what stands behind its marker, or all of it if it has none. -/
inductive IsBody : Text → Text → Prop
  | marked {mark : Char} {body : Text} (h : mark = 'x' ∨ mark = 'X') :
    IsBody ('0' :: mark :: body) body
  | bare {run : Text}
    (h : ∀ mark body, run = '0' :: mark :: body → mark ≠ 'x' ∧ mark ≠ 'X') : IsBody run run

/-- The run is well formed: its body consists of digit pairs. -/
def IsWellFormed (run : Text) : Prop := ∃ body, IsBody run body ∧ IsPairs body

/-- The body of the run spells the bytes. -/
def Denotes (run : Text) (bytes : Bytes) : Prop := ∃ body, IsBody run body ∧ Spells body bytes

/-- A run denotes some bytes if and only if it is well formed. -/
theorem exists_denotes_iff {run : Text} : (∃ bytes, Denotes run bytes) ↔ IsWellFormed run := by
  constructor
  · rintro ⟨bytes, body, hbody, hspells⟩
    exact ⟨body, hbody, exists_spells_iff.mp ⟨bytes, hspells⟩⟩
  · rintro ⟨body, hbody, hpairs⟩
    obtain ⟨bytes, hspells⟩ := exists_spells_iff.mpr hpairs
    exact ⟨bytes, body, hbody, hspells⟩

theorem tokens_separator {separator : Char} (h : isSeparator separator = true) (rest : Text) :
    tokens (separator :: rest) = tokens rest :=
  tokens_append_separator h [] rest

theorem tokens_run {run : Text} (hne : run ≠ []) (hrun : ∀ ch ∈ run, isSeparator ch = false) :
    tokens run = [run] := by
  rw [tokens, pieces_word hrun]
  exact List.filter_cons_of_pos (by simpa using hne)

/-- A run that ends at a separator, or at the end of the text, is the first token. -/
theorem tokens_run_append {run rest : Text} (hne : run ≠ [])
    (hrun : ∀ ch ∈ run, isSeparator ch = false)
    (hend : ∀ ch ∈ rest.head?, isSeparator ch = true) :
    tokens (run ++ rest) = run :: tokens rest := by
  cases rest with
  | nil =>
    rw [List.append_nil, tokens_run hne hrun]
    rfl
  | cons separator rest =>
    have hseparator : isSeparator separator = true := hend separator rfl
    rw [tokens_append_separator hseparator, tokens_run hne hrun, tokens_separator hseparator]
    rfl

/-- A text has its runs in one way only, and they are the tokens that the reader cuts it into. -/
theorem tokens_eq_of_isRuns {text : Text} {runs : List Text} (h : IsRuns text runs) :
    tokens text = runs := by
  induction h with
  | nil => rfl
  | separator h _ ih => rw [tokens_separator h, ih]
  | run hne hrun hend _ ih => rw [tokens_run_append hne hrun hend, ih]

/-- The tokens that the reader cuts a text into are its runs. -/
theorem isRuns_tokens (text : Text) : IsRuns text (tokens text) := by
  match text with
  | [] => exact .nil
  | ch :: rest =>
    cases hch : isSeparator ch with
    | true =>
      rw [tokens_separator hch]
      exact .separator hch (isRuns_tokens rest)
    | false =>
      -- the run that begins here ends in front of the next separator
      have hrun : ∀ ch' ∈ ch :: rest.takeWhile (!isSeparator ·), isSeparator ch' = false := by
        refine List.forall_mem_cons.mpr ⟨hch, fun ch' hmem => ?_⟩
        simpa using List.mem_takeWhile_imp hmem
      have hend : ∀ ch' ∈ (rest.dropWhile (!isSeparator ·)).head?, isSeparator ch' = true := by
        intro ch' hmem
        have hstop := List.head?_dropWhile_not (!isSeparator ·) rest
        rw [Option.mem_def.mp hmem] at hstop
        simpa using hstop
      have hlength := (List.dropWhile_sublist (!isSeparator ·) (l := rest)).length_le
      have hsplit : ch :: rest =
          (ch :: rest.takeWhile (!isSeparator ·)) ++ rest.dropWhile (!isSeparator ·) := by
        rw [List.cons_append, List.takeWhile_append_dropWhile]
      rw [hsplit, tokens_run_append (List.cons_ne_nil _ _) hrun hend]
      exact .run (List.cons_ne_nil _ _) hrun hend (isRuns_tokens (rest.dropWhile (!isSeparator ·)))
termination_by text.length
decreasing_by
  all_goals
    simp only [List.length_cons]
    omega

/-- A run has one body: the one that the reader takes, with the marker off. -/
theorem isBody_iff {run body' : Text} : IsBody run body' ↔ body run = body' := by
  constructor
  · intro h
    cases h with
    | marked h => rcases h with rfl | rfl <;> rfl
    | bare h =>
      unfold body
      split
      · exact absurd rfl (h _ _ rfl).1
      · exact absurd rfl (h _ _ rfl).2
      · rfl
  · rintro rfl
    unfold body
    split
    · exact .marked (.inl rfl)
    · exact .marked (.inr rfl)
    · next hlower hupper =>
      refine .bare fun mark rest heq => ⟨?_, ?_⟩
      · rintro rfl
        exact hlower rest heq
      · rintro rfl
        exact hupper rest heq

/-- A token is read as exactly the bytes that it denotes. -/
theorem tokenBytes_eq_ok_iff {run : Text} {bytes : Bytes} :
    tokenBytes run = .ok bytes ↔ Denotes run bytes := by
  have hdenotes : Denotes run bytes ↔ Spells (body run) bytes := by
    simp only [Denotes, isBody_iff, exists_eq_left']
  rw [hdenotes, ← pairs?_eq_some_iff, tokenBytes]
  cases pairs? (body run) <;> simp

/-- A token is refused for its own sake, and by its own name. -/
theorem tokenBytes_eq_error_iff {run : Text} {error : NameError} :
    tokenBytes run = .error error ↔ ¬IsWellFormed run ∧ error = .badToken run := by
  rw [← exists_denotes_iff]
  simp only [← tokenBytes_eq_ok_iff]
  rw [tokenBytes]
  cases pairs? (body run) <;> simp [eq_comm]

/-! ## Dumps -/

/-- Runs are accepted together if and only if each one denotes its part of the bytes. -/
theorem mapM_tokenBytes_eq_ok_iff {runs : List Text} {parts : List Bytes} :
    runs.mapM tokenBytes = .ok parts ↔ List.Forall₂ Denotes runs parts := by
  induction runs generalizing parts with
  | nil => cases parts <;> simp [pure, Except.pure]
  | cons run runs ih =>
    rw [List.mapM_cons]
    cases hrun : tokenBytes run with
    | error error =>
      have hdenotes : ∀ bytes, ¬Denotes run bytes := by
        intro bytes hbytes
        rw [tokenBytes_eq_ok_iff.mpr hbytes] at hrun
        simp at hrun
      cases parts <;> simp [bind, Except.bind, hdenotes]
    | ok bytes =>
      have hdenotes : ∀ bytes', Denotes run bytes' ↔ bytes = bytes' := by
        intro bytes'
        rw [← tokenBytes_eq_ok_iff, hrun, Except.ok.injEq]
      cases hruns : runs.mapM tokenBytes with
      | error error => cases parts <;> simp [bind, Except.bind, ← ih, hruns]
      | ok rest =>
        cases parts <;> simp [bind, Except.bind, pure, Except.pure, ← ih, hruns, hdenotes]

/-- The first run that is not well formed is the one that is named. -/
theorem mapM_tokenBytes_eq_error_iff {runs : List Text} {error : NameError} :
    runs.mapM tokenBytes = .error error ↔
      ∃ front run behind, runs = front ++ run :: behind ∧
        (∀ earlier ∈ front, IsWellFormed earlier) ∧ ¬IsWellFormed run ∧ error = .badToken run := by
  induction runs with
  | nil => simp [pure, Except.pure]
  | cons run runs ih =>
    rw [List.mapM_cons]
    cases hrun : tokenBytes run with
    | error error' =>
      obtain ⟨hmalformed, rfl⟩ := tokenBytes_eq_error_iff.mp hrun
      constructor
      · intro h
        obtain rfl : NameError.badToken run = error := Except.error.inj h
        exact ⟨[], run, runs, rfl, by simp, hmalformed, rfl⟩
      · rintro ⟨front, run', behind, hsplit, hfront, -, rfl⟩
        cases front with
        | nil =>
          obtain ⟨rfl, -⟩ := List.cons.inj hsplit
          rfl
        | cons first front =>
          obtain ⟨rfl, -⟩ := List.cons.inj hsplit
          exact absurd (hfront run List.mem_cons_self) hmalformed
    | ok bytes =>
      have hwell : IsWellFormed run := exists_denotes_iff.mp ⟨bytes, tokenBytes_eq_ok_iff.mp hrun⟩
      have hrest : (do
          let first ← (.ok bytes : Except NameError Bytes)
          let rest ← runs.mapM tokenBytes
          pure (first :: rest)) = .error error ↔ runs.mapM tokenBytes = .error error := by
        cases runs.mapM tokenBytes <;> simp [bind, Except.bind, pure, Except.pure]
      rw [hrest, ih]
      constructor
      · rintro ⟨front, run', behind, rfl, hfront, hmalformed⟩
        exact ⟨run :: front, run', behind, rfl, List.forall_mem_cons.mpr ⟨hwell, hfront⟩,
          hmalformed⟩
      · rintro ⟨front, run', behind, hsplit, hfront, hmalformed⟩
        cases front with
        | nil =>
          obtain ⟨rfl, -⟩ := List.cons.inj hsplit
          exact absurd hwell hmalformed.1
        | cons first front =>
          obtain ⟨rfl, rfl⟩ := List.cons.inj hsplit
          exact ⟨front, run', behind, rfl, (List.forall_mem_cons.mp hfront).2, hmalformed⟩

/-- A dump is accepted if and only if its tokens denote parts that make up the bytes. -/
theorem parse_eq_ok_iff {text : Text} {bytes : Bytes} :
    parse text = .ok bytes ↔
      ∃ parts, List.Forall₂ Denotes (tokens text) parts ∧ bytes = parts.flatten := by
  simp only [← mapM_tokenBytes_eq_ok_iff]
  rw [parse]
  cases (tokens text).mapM tokenBytes <;> simp [bind, Except.bind, pure, Except.pure, eq_comm]

/-- A dump is refused for the first of its tokens that is not well formed, which the error names. -/
theorem parse_eq_error_iff {text : Text} {error : NameError} :
    parse text = .error error ↔
      ∃ front run behind, tokens text = front ++ run :: behind ∧
        (∀ earlier ∈ front, IsWellFormed earlier) ∧ ¬IsWellFormed run ∧ error = .badToken run := by
  rw [← mapM_tokenBytes_eq_error_iff, parse]
  cases (tokens text).mapM tokenBytes <;> simp [bind, Except.bind, pure, Except.pure]

theorem isWellFormed_of_forall₂_denotes {runs : List Text} {parts : List Bytes}
    (h : List.Forall₂ Denotes runs parts) : ∀ run ∈ runs, IsWellFormed run := by
  induction h with
  | nil => simp
  | cons hdenotes _ ih => exact List.forall_mem_cons.mpr ⟨exists_denotes_iff.mp ⟨_, hdenotes⟩, ih⟩

/-- A dump is accepted if and only if all its tokens are well formed. -/
theorem exists_parse_eq_ok_iff {text : Text} :
    (∃ bytes, parse text = .ok bytes) ↔ ∀ run ∈ tokens text, IsWellFormed run := by
  constructor
  · rintro ⟨bytes, h⟩
    obtain ⟨parts, hparts, -⟩ := parse_eq_ok_iff.mp h
    exact isWellFormed_of_forall₂_denotes hparts
  · intro hwell
    cases hparse : parse text with
    | ok bytes => exact ⟨bytes, rfl⟩
    | error error =>
      obtain ⟨front, run, behind, hsplit, -, hmalformed, -⟩ := parse_eq_error_iff.mp hparse
      have hmem : run ∈ tokens text := hsplit ▸ List.mem_append_right _ List.mem_cons_self
      exact absurd (hwell run hmem) hmalformed

/-- What stands behind a separator is read only if what stands in front of it could be. -/
theorem parse_append_separator {separator : Char} (h : isSeparator separator = true)
    (front behind : Text) :
    parse (front ++ separator :: behind) = (do
      let bytes ← parse front
      let bytes' ← parse behind
      return bytes ++ bytes') := by
  rw [parse, tokens_append_separator h, List.mapM_append, parse, parse]
  cases (tokens front).mapM tokenBytes with
  | error error => rfl
  | ok parts =>
    cases (tokens behind).mapM tokenBytes with
    | error error => rfl
    | ok parts' => exact congrArg Except.ok List.flatten_append

/-- Reading a hex dump. Every text has its runs in just one way. It is accepted if and only if all
its runs are well formed; what comes out are the bytes that the runs denote, in order; otherwise
the error holds the first run that is not well formed, just as it stands in the text. So two texts
with a separator between them are read one behind the other, and the first error counts. -/
theorem parse_grammar (text : Text) :
    (∃ runs, IsRuns text runs ∧ (∀ runs', IsRuns text runs' → runs' = runs) ∧
      ((∃ bytes, parse text = .ok bytes) ↔ ∀ run ∈ runs, IsWellFormed run) ∧
      (∀ bytes, parse text = .ok bytes ↔
        ∃ parts, List.Forall₂ Denotes runs parts ∧ bytes = parts.flatten) ∧
      ∀ error, parse text = .error error ↔
        ∃ front run behind, runs = front ++ run :: behind ∧
          (∀ earlier ∈ front, IsWellFormed earlier) ∧ ¬IsWellFormed run ∧
            error = .badToken run) ∧
    ∀ front separator behind, text = front ++ separator :: behind →
      isSeparator separator = true →
        parse text = (do
          let bytes ← parse front
          let bytes' ← parse behind
          return bytes ++ bytes') := by
  refine ⟨⟨tokens text, isRuns_tokens text, ?_, exists_parse_eq_ok_iff, fun bytes => ?_,
    fun error => ?_⟩, ?_⟩
  · intro runs' hruns
    exact (tokens_eq_of_isRuns hruns).symm
  · exact parse_eq_ok_iff
  · exact parse_eq_error_iff
  · rintro front separator behind rfl hseparator
    exact parse_append_separator hseparator front behind

/-- Markers of both cases, one of them with nothing behind it, and separators in a row. -/
example : parse "0xbB,\u3000,0X d5FF".toList = .ok [0xBB, 0xD5, 0xFF] := by rfl

/-- A doubled marker is refused, by the whole token, before the odd one behind it. -/
example : parse "AA 0x0x12,ABC".toList = .error (.badToken "0x0x12".toList) := by rfl

/-! ## Normal forms -/

/-- The dump is in normal form: upper-case pairs with single spaces between. -/
def IsNormal (text : Text) : Prop :=
  ∃ pairs : List Text, text = [' '].intercalate pairs ∧
    ∀ pair ∈ pairs, ∃ high < 16, ∃ low < 16, pair = [HexDigit.upper high, HexDigit.upper low]

theorem isNormal_print (bytes : Bytes) : IsNormal (print bytes) := by
  refine ⟨bytes.map digits, rfl, fun pair hmem => ?_⟩
  obtain ⟨byte, -, rfl⟩ := List.mem_map.mp hmem
  exact ⟨_, high_lt byte, _, low_lt byte, rfl⟩

/-- A byte that is put together from two halves is printed as their digits. -/
theorem digits_ofNat {high low : Nat} (hhigh : high < 16) (hlow : low < 16) :
    digits (UInt8.ofNat (16 * high + low)) = [HexDigit.upper high, HexDigit.upper low] := by
  have hbyte : (UInt8.ofNat (16 * high + low)).toNat = 16 * high + low :=
    UInt8.toNat_ofNat_of_lt' (show 16 * high + low < 256 by omega)
  have hdiv : (16 * high + low) / 16 = high := by omega
  have hmod : (16 * high + low) % 16 = low := by omega
  rw [digits, hbyte, hdiv, hmod]

/-- Every normal form has been printed from some bytes. -/
theorem exists_print_of_isNormal {text : Text} (h : IsNormal text) :
    ∃ bytes, text = print bytes := by
  obtain ⟨pairs, rfl, hpairs⟩ := h
  suffices hbytes : ∃ bytes : Bytes, pairs = bytes.map digits by
    obtain ⟨bytes, rfl⟩ := hbytes
    exact ⟨bytes, rfl⟩
  induction pairs with
  | nil => exact ⟨[], rfl⟩
  | cons pair pairs ih =>
    obtain ⟨⟨high, hhigh, low, hlow, rfl⟩, hrest⟩ := List.forall_mem_cons.mp hpairs
    obtain ⟨bytes, rfl⟩ := ih hrest
    exact ⟨UInt8.ofNat (16 * high + low) :: bytes, by rw [List.map_cons, digits_ofNat hhigh hlow]⟩

/-- Different bytes are printed as different dumps. -/
theorem print_inj {bytes bytes' : Bytes} : print bytes = print bytes' ↔ bytes = bytes' := by
  constructor
  · intro h
    have hparse := parse_print bytes
    rw [h, parse_print, Except.ok.injEq] at hparse
    exact hparse.symm
  · exact congrArg print

/-- Printing gives normal forms. A printed dump is read as its bytes, whatever they are. For a text
that is accepted, the dump printed from its bytes is the only normal form that is read as the text
is; so two accepted texts have the same one if and only if they are read as the same bytes. -/
theorem print_normal_form :
    (∀ bytes, parse (print bytes) = .ok bytes) ∧
      (∀ text bytes, parse text = .ok bytes →
        ∀ normal, IsNormal normal ∧ parse normal = parse text ↔ normal = print bytes) ∧
      ∀ text text' bytes bytes', parse text = .ok bytes → parse text' = .ok bytes' →
        (print bytes = print bytes' ↔ bytes = bytes') := by
  refine ⟨parse_print, fun text bytes htext normal => ?_, fun _ _ _ _ _ _ => print_inj⟩
  rw [htext]
  constructor
  · rintro ⟨hnormal, hparse⟩
    obtain ⟨bytes', rfl⟩ := exists_print_of_isNormal hnormal
    rw [parse_print, Except.ok.injEq] at hparse
    rw [hparse]
  · rintro rfl
    exact ⟨isNormal_print bytes, parse_print bytes⟩

end Hex
end SaveNames
