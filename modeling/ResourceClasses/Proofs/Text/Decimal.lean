import ResourceClasses.ClassFile.Listing
import ResourceClasses.Proofs.Text.Numeral

/-!
Decimals that are written: the digits of a number give the number back, and an int is told by its
text.
-/

set_option autoImplicit false

namespace ResourceClasses

namespace Text

private theorem toNat_range_of_isDigit {c : Char} (digit : c.isDigit = true) :
    0x30 ≤ c.toNat ∧ c.toNat ≤ 0x39 := by
  simp only [Char.isDigit, Bool.and_eq_true, decide_eq_true_eq, UInt32.le_iff_toNat_le] at digit
  exact digit

private theorem digitValue?_of_isDigit {c : Char} (digit : c.isDigit = true) :
    digitValue? c = some (c.toNat - 0x30) :=
  if_pos (toNat_range_of_isDigit digit)

private theorem isDigit_of_mem_repr {n : Nat} {c : Char} (member : c ∈ (Nat.repr n).toList) :
    c.isDigit = true := by
  rw [Nat.repr_eq_ofList_toDigits, String.toList_ofList] at member
  exact Nat.isDigit_of_mem_toDigits (by decide) (by decide) member

theorem isDigit_repr (n : Nat) : ∀ c ∈ (Nat.repr n).toList, isDigit 10 c = true := by
  intro c member
  have digit := isDigit_of_mem_repr member
  have range := toNat_range_of_isDigit digit
  rw [isDigit, digitValue?_of_isDigit digit, decide_eq_true_eq]
  omega

theorem repr_ne_nil (n : Nat) : (Nat.repr n).toList ≠ [] := by
  rw [Nat.repr_eq_ofList_toDigits, String.toList_ofList]
  exact Nat.toDigits_ne_nil

/-- The digits of a number write that number. -/
theorem numberOf_repr (n : Nat) : numberOf 10 (Nat.repr n).toList = n := by
  have each : ∀ digits : List Char, (∀ c ∈ digits, c.isDigit = true) → ∀ start,
      numberFrom 10 start digits = Nat.ofDigitChars 10 digits start := by
    intro digits all
    induction digits with
    | nil => exact fun _ => rfl
    | cons c digits ih =>
      rw [List.forall_mem_cons] at all
      intro start
      rw [Nat.ofDigitChars_cons, ← ih all.2, numberFrom, List.foldl_cons,
        digitValue?_of_isDigit all.1]
      rfl
  rw [numberOf, each _ (fun _ => isDigit_of_mem_repr), Nat.repr_eq_ofList_toDigits,
    String.toList_ofList]
  exact Nat.ofDigitChars_ten_toDigits

theorem repr_inj {n m : Nat} : Nat.repr n = Nat.repr m ↔ n = m := by
  constructor
  · intro same
    rw [← numberOf_repr n, same, numberOf_repr]
  · rintro rfl
    rfl

end Text

namespace ClassFile

open Text (decimalNumber isDigit numberOf)

/-- The text of an int is a number, behind a minus sign if it is negative. -/
theorem toList_decimal (value : Int32) :
    (decimal value).toList =
      if value.toInt < 0 then '-' :: (Nat.repr value.toInt.natAbs).toList
      else (Nat.repr value.toInt.natAbs).toList := by
  unfold decimal
  dsimp only
  split
  · rw [String.toList_append]
    rfl
  · rfl

theorem exists_digits_decimal (value : Int32) :
    ∃ digits, ((decimal value).toList = digits ∨ (decimal value).toList = '-' :: digits) ∧
      digits ≠ [] ∧ ∀ c ∈ digits, isDigit 10 c = true := by
  refine ⟨(Nat.repr value.toInt.natAbs).toList, ?_, Text.repr_ne_nil _, Text.isDigit_repr _⟩
  rw [toList_decimal]
  split
  · exact .inr rfl
  · exact .inl rfl

/-- The text of an int writes that int. -/
theorem decimalNumber_decimal (value : Int32) :
    decimalNumber (decimal value).toList = value.toInt := by
  rw [toList_decimal]
  split
  · rw [decimalNumber, Text.numberOf_repr]
    omega
  · rw [Text.decimalNumber_of_isDigit (Text.isDigit_repr _), Text.numberOf_repr]
    omega

theorem decimal_injective {value other : Int32} (same : decimal value = decimal other) :
    value = other := by
  have number := decimalNumber_decimal value
  rw [same, decimalNumber_decimal] at number
  exact (Int32.toInt_inj.mp number).symm

end ClassFile

end ResourceClasses
