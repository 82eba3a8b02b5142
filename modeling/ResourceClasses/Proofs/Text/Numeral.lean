import Mathlib.Logic.Basic
import ResourceClasses.Text.Numeral

/-!
The numbers of numerals: reading digits gives the number that they write if it is in range, and
nothing else. To read a decimal as 64 bits first makes no difference to which ones have 32.
-/

set_option autoImplicit false

namespace ResourceClasses.Text

/-- The number that digits write behind a number. -/
def numberFrom (base n : Nat) (digits : List Char) : Nat :=
  digits.foldl (fun n c => base * n + (digitValue? c).getD 0) n

/-- The number that digits write. -/
def numberOf (base : Nat) (digits : List Char) : Nat :=
  numberFrom base 0 digits

/-- The number of a decimal numeral, with a minus sign or without a sign. -/
def decimalNumber : List Char → Int
  | '-' :: digits => -(numberOf 10 digits : Int)
  | digits => numberOf 10 digits

section

variable {base limit n : Nat} {excess : NumeralFault} {digits : List Char} {c : Char}

private theorem le_numberFrom (positive : 0 < base) : n ≤ numberFrom base n digits := by
  induction digits generalizing n with
  | nil => exact Nat.le_refl _
  | cons c digits ih =>
    calc
      n ≤ base * n := Nat.le_mul_of_pos_left n positive
      _ ≤ base * n + (digitValue? c).getD 0 := Nat.le_add_right _ _
      _ ≤ numberFrom base n (c :: digits) := ih

private theorem exists_digitValue_of_isDigit (digit : isDigit base c = true) :
    ∃ value, digitValue? c = some value ∧ value < base := by
  unfold isDigit at digit
  cases read : digitValue? c with
  | none => simp [read] at digit
  | some value => exact ⟨value, rfl, by simpa [read] using digit⟩

/-- Digits never make a number smaller, so reading them goes on as long as the whole number is
within the limit. -/
theorem digitsWithin_eq (positive : 0 < base) (each : ∀ c ∈ digits, isDigit base c = true)
    (within : n ≤ limit) :
    digitsWithin base limit excess n digits =
      if numberFrom base n digits ≤ limit then .ok (numberFrom base n digits)
      else .error excess := by
  induction digits generalizing n with
  | nil => exact (if_pos within).symm
  | cons c digits ih =>
    rw [List.forall_mem_cons] at each
    obtain ⟨value, read, small⟩ := exists_digitValue_of_isDigit each.1
    have next : numberFrom base n (c :: digits) = numberFrom base (base * n + value) digits := by
      rw [numberFrom, List.foldl_cons, read, Option.getD_some, numberFrom]
    rw [digitsWithin, read, next]
    dsimp only
    rw [if_neg (Nat.not_le_of_lt small)]
    by_cases more : limit < base * n + value
    · have beyond : limit < numberFrom base (base * n + value) digits :=
        Nat.lt_of_lt_of_le more (le_numberFrom positive)
      rw [if_pos more, if_neg (Nat.not_le_of_lt beyond)]
    · rw [if_neg more, ih each.2 (Nat.le_of_not_lt more)]

private theorem bind_digitsWithin {α : Type} (number : Nat → α) (positive : 0 < base)
    (each : ∀ c ∈ digits, isDigit base c = true) :
    (digitsWithin base limit excess 0 digits >>= fun n => .ok (number n)) =
      if numberOf base digits ≤ limit then .ok (number (numberOf base digits))
      else .error excess := by
  rw [digitsWithin_eq positive each (Nat.zero_le _), ← numberOf]
  split <;> rfl

private theorem ite_eq_ok_iff {p : Prop} [Decidable p] {fault : NumeralFault}
    {found value : Int32} :
    (if p then Except.ok found else .error fault) = .ok value ↔ p ∧ value = found := by
  split
  · rename_i holds
    rw [Except.ok.injEq]
    exact ⟨fun same => ⟨holds, same.symm⟩, fun ⟨_, same⟩ => same.symm⟩
  · rename_i fails
    exact ⟨fun failed => (nomatch failed), fun ⟨holds, _⟩ => absurd holds fails⟩

end

section

variable {digits : List Char} {value : Int32}

private theorem not_sign_of_isDigit {base : Nat} {c : Char} (digit : isDigit base c = true) :
    c ≠ '-' ∧ c ≠ '+' := by
  constructor <;>
  · rintro rfl
    contradiction

theorem decimalNumber_of_isDigit (each : ∀ c ∈ digits, isDigit 10 c = true) :
    decimalNumber digits = numberOf 10 digits := by
  unfold decimalNumber
  split
  · exact absurd rfl (not_sign_of_isDigit (each _ List.mem_cons_self)).1
  · rfl

private theorem decimal_natural (largest : Nat) (some_digit : digits ≠ [])
    (each : ∀ c ∈ digits, isDigit 10 c = true) :
    decimal largest digits =
      if numberOf 10 digits ≤ largest then .ok (numberOf 10 digits : Int)
      else .error .tooLarge := by
  rw [← bind_digitsWithin (fun n => (n : Int)) (by decide) each]
  cases digits with
  | nil => contradiction
  | cons c cs =>
    obtain ⟨no_minus, no_plus⟩ := not_sign_of_isDigit (each c List.mem_cons_self)
    unfold decimal
    split
    · contradiction
    · rename_i same
      exact absurd (List.cons.inj same).1 no_minus
    · rename_i same
      exact absurd (List.cons.inj same).1 no_plus
    · rfl

/-- What a natural number in decimal is read as. -/
theorem decimal32_natural (some_digit : digits ≠ [])
    (each : ∀ c ∈ digits, isDigit 10 c = true) :
    decimal32 digits =
      if numberOf 10 digits ≤ 0x7fffffff then .ok (Int32.ofNat (numberOf 10 digits))
      else .error .tooLarge := by
  rw [decimal32, decimal_natural _ some_digit each, ← Int32.ofInt_eq_ofNat]
  split <;> rfl

/-- What a decimal with a minus sign is read as. -/
theorem decimal32_negative (some_digit : digits ≠ [])
    (each : ∀ c ∈ digits, isDigit 10 c = true) :
    decimal32 ('-' :: digits) =
      if numberOf 10 digits ≤ 0x80000000 then .ok (Int32.ofInt (-(numberOf 10 digits : Int)))
      else .error .tooSmall := by
  rw [← bind_digitsWithin (fun n => Int32.ofInt (-(n : Int))) (by decide) each, decimal32, decimal,
    signedDigits, if_neg (by simpa using some_digit), bind_assoc]
  rfl

/-- What digits of base sixteen are read as. -/
theorem hexadecimal32_digits (some_digit : digits ≠ [])
    (each : ∀ c ∈ digits, isDigit 16 c = true) :
    hexadecimal32 digits =
      if numberOf 16 digits ≤ 0xffffffff then .ok (Int32.ofNat (numberOf 16 digits))
      else .error .tooLarge := by
  rw [← bind_digitsWithin Int32.ofNat (by decide) each]
  cases digits with
  | nil => contradiction
  | cons c cs =>
    obtain ⟨no_minus, no_plus⟩ := not_sign_of_isDigit (each c List.mem_cons_self)
    unfold hexadecimal32
    split
    · contradiction
    · rename_i same
      exact absurd (List.cons.inj same).1 no_plus
    · rename_i same
      exact absurd (List.cons.inj same).1 no_minus
    · rfl

/-- A natural number in decimal is read if it fits. -/
theorem decimal32_natural_iff (some_digit : digits ≠ [])
    (each : ∀ c ∈ digits, isDigit 10 c = true) :
    decimal32 digits = .ok value ↔
      (-0x80000000 ≤ decimalNumber digits ∧ decimalNumber digits < 0x80000000) ∧
        value = Int32.ofInt (decimalNumber digits) := by
  rw [decimalNumber_of_isDigit each, decimal32_natural some_digit each, Int32.ofInt_eq_ofNat,
    ite_eq_ok_iff]
  apply and_congr_left'
  omega

/-- A decimal with a minus sign is read if it fits. -/
theorem decimal32_negative_iff (some_digit : digits ≠ [])
    (each : ∀ c ∈ digits, isDigit 10 c = true) :
    decimal32 ('-' :: digits) = .ok value ↔
      (-0x80000000 ≤ decimalNumber ('-' :: digits) ∧
        decimalNumber ('-' :: digits) < 0x80000000) ∧
        value = Int32.ofInt (decimalNumber ('-' :: digits)) := by
  rw [decimalNumber, decimal32_negative some_digit each, ite_eq_ok_iff]
  apply and_congr_left'
  omega

/-- A number in base sixteen is read if it has no more than 32 bits. -/
theorem hexadecimal32_iff (some_digit : digits ≠ [])
    (each : ∀ c ∈ digits, isDigit 16 c = true) :
    hexadecimal32 digits = .ok value ↔
      numberOf 16 digits < 0x100000000 ∧ value = Int32.ofNat (numberOf 16 digits) := by
  rw [hexadecimal32_digits some_digit each, ite_eq_ok_iff]
  exact and_congr_left' Nat.lt_succ_iff.symm

end

section

variable {digits : List Char} {base small large n m : Nat} {excess : NumeralFault}

/-- Digits that are read behind a number write one that is no smaller. -/
private theorem le_of_digitsWithin (positive : 0 < base)
    (read : digitsWithin base large excess n digits = .ok m) : n ≤ m := by
  induction digits generalizing n with
  | nil =>
    cases read
    exact Nat.le_refl _
  | cons c digits ih =>
    rw [digitsWithin] at read
    split at read
    · contradiction
    · rename_i digit _
      split at read
      · contradiction
      · split at read
        · contradiction
        · calc
            n ≤ base * n := Nat.le_mul_of_pos_left n positive
            _ ≤ base * n + digit := Nat.le_add_right _ _
            _ ≤ m := ih read

/-- To read digits up to a limit is to read them up to a larger one and look at the number. -/
private theorem toOption_digitsWithin (positive : 0 < base) (less : small ≤ large)
    (within : n ≤ small) (fault : NumeralFault) :
    (digitsWithin base small excess n digits).toOption =
      (digitsWithin base large fault n digits).toOption.filter (· ≤ small) := by
  induction digits generalizing n with
  | nil => simp [digitsWithin, Except.toOption, Option.filter, within]
  | cons c digits ih =>
    rw [digitsWithin, digitsWithin]
    cases digitValue? c with
    | none => rfl
    | some digit =>
      dsimp only
      split
      · rfl
      · by_cases more : small < base * n + digit
        · rw [if_pos more]
          split
          · rfl
          · -- Whatever the rest writes is too large already.
            cases read : digitsWithin base large fault (base * n + digit) digits with
            | error => rfl
            | ok m =>
              have grown := le_of_digitsWithin positive read
              have beyond : ¬m ≤ small := Nat.not_le_of_lt (Nat.lt_of_lt_of_le more grown)
              simp [Except.toOption, Option.filter, beyond]
        · have inside : ¬large < base * n + digit := by omega
          rw [if_neg more, if_neg inside]
          exact ih (Nat.le_of_not_lt more)

private theorem toOption_bind_ok {ε α β : Type} (first : Except ε α) (f : α → β) :
    (first >>= fun a => .ok (f a)).toOption = first.toOption.map f := by
  cases first <;> rfl

/-- Numbers that are made of natural ones are in the range of decimals if those are up to a limit. -/
private theorem filter_map_range {number : Nat → Int} {limit : Nat} (found : Option Nat)
    (inside : ∀ n, (-((small : Int) + 1) ≤ number n ∧ number n ≤ (small : Int)) ↔ n ≤ limit) :
    ((found.map number).filter fun z : Int => -((small : Int) + 1) ≤ z ∧ z ≤ (small : Int)) =
      (found.filter (· ≤ limit)).map number := by
  rw [Option.filter_map]
  refine congrArg (fun p => (found.filter p).map number) (funext fun n => ?_)
  rw [Function.comp_apply, decide_eq_decide]
  exact inside n

variable {numeral : List Char}

private theorem toOption_signedDigits (positive : 0 < base) (less : small ≤ large)
    (fault : NumeralFault) :
    (signedDigits base small excess digits).toOption =
      (signedDigits base large fault digits).toOption.filter (· ≤ small) := by
  unfold signedDigits
  split
  · rfl
  · exact toOption_digitsWithin positive less (Nat.zero_le _) fault

/-- The decimals up to a largest number are those of a larger one whose number is in range. -/
private theorem toOption_decimal (less : small ≤ large) :
    (decimal small numeral).toOption =
      (decimal large numeral).toOption.filter fun z : Int =>
        -((small : Int) + 1) ≤ z ∧ z ≤ (small : Int) := by
  have natural : ∀ n : Nat,
      (-((small : Int) + 1) ≤ (n : Int) ∧ (n : Int) ≤ (small : Int)) ↔ n ≤ small := by
    omega
  have negative : ∀ n : Nat,
      (-((small : Int) + 1) ≤ -(n : Int) ∧ -(n : Int) ≤ (small : Int)) ↔ n ≤ small + 1 := by
    omega
  unfold decimal
  split
  · rfl
  · rw [toOption_bind_ok, toOption_bind_ok, filter_map_range _ negative,
      toOption_signedDigits (by decide) (Nat.succ_le_succ less) .tooSmall]
  · rw [toOption_bind_ok, toOption_bind_ok, filter_map_range _ natural,
      toOption_signedDigits (by decide) less .tooLarge]
  · rw [toOption_bind_ok, toOption_bind_ok, filter_map_range _ natural,
      toOption_digitsWithin (by decide) less (Nat.zero_le _) .tooLarge]

private theorem bounds_of_decimal {z : Int} (read : decimal large numeral = .ok z) :
    -((large : Int) + 1) ≤ z ∧ z ≤ (large : Int) := by
  have inside : (decimal large numeral).toOption = _ := toOption_decimal (Nat.le_refl large)
  rw [read] at inside
  exact of_decide_eq_true (Option.filter_eq_some_iff.mp inside.symm).2

/-- A decimal that is read as a number of 64 bits and narrowed is one that is read as 32 bits at
once. -/
theorem narrow?_decimal64 (numeral : List Char) :
    (decimal64 numeral).toOption.bind narrow? = (decimal32 numeral).toOption := by
  have less : 0x7fffffff ≤ 0x7fffffffffffffff := by decide
  rw [decimal64, decimal32, toOption_bind_ok, toOption_bind_ok, toOption_decimal less]
  cases read : decimal 0x7fffffffffffffff numeral with
  | error => rfl
  | ok z =>
    obtain ⟨low, high⟩ := bounds_of_decimal read
    have whole : (Int64.ofInt z).toInt = z := Int64.toInt_ofInt_of_le (by omega) (by omega)
    simp only [Except.toOption, Option.map_some, Option.bind_some, narrow?, whole,
      Int64.toInt32_ofInt, Option.filter]
    split <;> rename_i range
    · rw [if_pos (by simpa using range)]
      rfl
    · rw [if_neg (by simpa using range)]
      rfl

end

end ResourceClasses.Text
