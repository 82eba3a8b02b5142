import ResourceClasses.CommandLine.Command
import ResourceClasses.Proofs.SymbolFile.Lines
import ResourceClasses.Proofs.SymbolFile.Spacing

/-!
Numerals of any length: a value of a symbol file and a package id of the command line are read by
two readers, which take the same numerals and give the same numbers.

Main statement: `Numeral.readers_agree`.
-/

set_option autoImplicit false

namespace ResourceClasses.SymbolFile

open Text (NumeralFault isDigit numberOf)

/-- Some digits of a base. -/
structure Digits (base : Nat) where
  chars : List Char
  some_digit : chars ≠ []
  each : ∀ c ∈ chars, isDigit base c = true

/-- A numeral: decimal digits, with a minus sign or without a sign, or digits of base sixteen behind
their marker, in either case with any zeros in front. -/
inductive Numeral
  | natural (digits : Digits 10)
  | negative (digits : Digits 10)
  | hexadecimal (marker : Char) (base : marker = 'x' ∨ marker = 'X') (digits : Digits 16)

namespace Numeral

def chars : Numeral → List Char
  | natural digits => digits.chars
  | negative digits => '-' :: digits.chars
  | hexadecimal marker _ digits => '0' :: marker :: digits.chars

def text (numeral : Numeral) : String :=
  String.ofList numeral.chars

/-- The token that a numeral is read as. -/
def token (numeral : Numeral) : Token :=
  match numeral with
  | natural _ | negative _ => .decimal numeral.chars
  | hexadecimal .. => .hexadecimal numeral.chars

/-- The number that a numeral denotes. -/
def number : Numeral → Int
  | natural digits => numberOf 10 digits.chars
  | negative digits => -(numberOf 10 digits.chars : Int)
  | hexadecimal _ _ digits => numberOf 16 digits.chars

/-- Whether a decimal is an int, or digits of base sixteen have no more than 32 bits. -/
def InRange (numeral : Numeral) : Prop :=
  match numeral with
  | natural _ | negative _ => -0x80000000 ≤ numeral.number ∧ numeral.number < 0x80000000
  | hexadecimal .. => numeral.number < 0x100000000

instance (numeral : Numeral) : Decidable numeral.InRange :=
  match numeral with
  | natural _ | negative _ => inferInstanceAs (Decidable (_ ∧ _))
  | hexadecimal .. => inferInstanceAs (Decidable (_ < _))

/-- The int of a numeral in range; of base sixteen, the one with its bits. -/
def value (numeral : Numeral) : Int32 :=
  Int32.ofInt numeral.number

/-- What is wrong with a numeral that is not in range. -/
def excess : Numeral → NumeralFault
  | natural _ | hexadecimal .. => .tooLarge
  | negative _ => .tooSmall

/-- What a numeral is read as. -/
def outcome (numeral : Numeral) : Except NumeralFault Int32 :=
  if numeral.InRange then .ok numeral.value else .error numeral.excess

theorem chars_token (numeral : Numeral) : numeral.token.chars = numeral.chars := by
  cases numeral <;> rfl

theorem proper_token (numeral : Numeral) : numeral.token.Proper where
  allowed := by
    cases numeral with
    | natural digits => exact ⟨digits.chars, .inl rfl, digits.some_digit, digits.each⟩
    | negative digits => exact ⟨digits.chars, .inr rfl, digits.some_digit, digits.each⟩
    | hexadecimal marker base digits =>
      exact ⟨marker, digits.chars, rfl, base, digits.some_digit, digits.each⟩
  plain := by
    intro word
    cases numeral <;> nofun

/-- A numeral is one token. -/
theorem lexemes_chars (numeral : Numeral) :
    lexemes numeral.chars = .ok [⟨numeral.token, 1⟩] := by
  have longest : LongestAt (numeral.token.chars ++ []) numeral.token [] :=
    numeral.proper_token.longestAt (.inr (by simp))
  rw [List.append_nil, chars_token] at longest
  exact lexemes_eq_ok_iff.mpr (.token longest .done)

private theorem decimal32_chars_natural (digits : Digits 10) :
    Text.decimal32 digits.chars = (natural digits).outcome := by
  have range : numberOf 10 digits.chars ≤ 0x7fffffff ↔ (natural digits).InRange := by
    simp only [InRange, number]
    omega
  rw [Text.decimal32_natural digits.some_digit digits.each, outcome, value, number,
    Int32.ofInt_eq_ofNat]
  exact if_congr range rfl rfl

private theorem decimal32_chars_negative (digits : Digits 10) :
    Text.decimal32 ('-' :: digits.chars) = (negative digits).outcome := by
  have range : numberOf 10 digits.chars ≤ 0x80000000 ↔ (negative digits).InRange := by
    simp only [InRange, number]
    omega
  rw [Text.decimal32_negative digits.some_digit digits.each, outcome, value, number]
  exact if_congr range rfl rfl

private theorem hexadecimal32_chars {marker : Char} (base : marker = 'x' ∨ marker = 'X')
    (digits : Digits 16) :
    Text.hexadecimal32 digits.chars = (hexadecimal marker base digits).outcome := by
  have range : numberOf 16 digits.chars ≤ 0xffffffff ↔
      (hexadecimal marker base digits).InRange := by
    simp only [InRange, number]
    omega
  rw [Text.hexadecimal32_digits digits.some_digit digits.each, outcome, value, number,
    Int32.ofInt_eq_ofNat]
  exact if_congr range rfl rfl

private theorem number?_decimal {chars : List Char} {numeral : Numeral}
    (read : Text.decimal32 chars = numeral.outcome) :
    Token.number? (.decimal chars) = some numeral.outcome.toOption := by
  rw [Token.number?, Text.narrow?_decimal64, read]

theorem number?_token (numeral : Numeral) :
    numeral.token.number? = some numeral.outcome.toOption := by
  cases numeral with
  | natural digits => exact number?_decimal (decimal32_chars_natural digits)
  | negative digits => exact number?_decimal (decimal32_chars_negative digits)
  | hexadecimal marker base digits =>
    exact congrArg (fun outcome => some outcome.toOption) (hexadecimal32_chars base digits)

/-- Digits have no marker, so a package id of digits is read in decimal. -/
private theorem packageIdNumber_digits (digits : Digits 10) :
    CommandLine.packageIdNumber digits.chars = Text.decimal32 digits.chars := by
  have each := digits.each
  unfold CommandLine.packageIdNumber
  split
  · rename_i later same
    exact absurd (each 'x' (by rw [same]; simp)) (by decide)
  · rename_i later same
    exact absurd (each 'X' (by rw [same]; simp)) (by decide)
  · rfl

theorem packageIdNumber_chars (numeral : Numeral) :
    CommandLine.packageIdNumber numeral.chars = numeral.outcome := by
  cases numeral with
  | natural digits => exact (packageIdNumber_digits digits).trans (decimal32_chars_natural digits)
  | negative digits => exact decimal32_chars_negative digits
  | hexadecimal marker base digits =>
    have hexadecimal32 := hexadecimal32_chars base digits
    rcases base with rfl | rfl <;> exact hexadecimal32

/-- A numeral of any length is one token. Where a value is expected, it is read as the number that
it denotes, modulo 2 ^ 32 in base sixteen, if that is in range, and blamed as a value if it is not;
and as a package id it is read as the same number or refused. -/
theorem readers_agree (numeral : Numeral) :
    lexemes numeral.chars = .ok [⟨numeral.token, 1⟩] ∧
    (∀ (endLine line : Nat) (rest : List Lexeme),
      takeValue endLine (⟨numeral.token, line⟩ :: rest) =
        if numeral.InRange then .ok (Int32.ofInt numeral.number, rest)
        else .error (.invalidValue line numeral.text)) ∧
    CommandLine.packageId numeral.text =
      if numeral.InRange then .ok (Int32.ofInt numeral.number)
      else .error (.invalidText
        ("invalid package id `" ++ numeral.text ++ "`: " ++ numeral.excess.message)) := by
  refine ⟨numeral.lexemes_chars, ?_, ?_⟩
  · intro endLine line rest
    have named : numeral.token.text = numeral.text := congrArg String.ofList numeral.chars_token
    rw [takeValue, number?_token, outcome, ← named]
    by_cases range : numeral.InRange
    · rw [if_pos range, if_pos range]
      rfl
    · rw [if_neg range, if_neg range]
      rfl
  · have chars_text : numeral.text.toList = numeral.chars := String.toList_ofList
    rw [CommandLine.packageId, chars_text, packageIdNumber_chars, outcome]
    by_cases range : numeral.InRange
    · simp only [if_pos range]
      rfl
    · simp only [if_neg range]

end Numeral

end ResourceClasses.SymbolFile
