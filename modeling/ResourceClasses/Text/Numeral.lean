/-!
Numerals: numbers of 32 or 64 bits written in decimal with a sign, or of 32 in base sixteen.

Digits are taken from left to right; the first one that is no digit, or that makes the number too
large, decides what is wrong.
-/

set_option autoImplicit false

namespace ResourceClasses.Text

/-- Why a text is no numeral of a number in range. -/
inductive NumeralFault
  | empty
  | invalidDigit
  | tooLarge
  | tooSmall
  deriving DecidableEq, Repr

def NumeralFault.message : NumeralFault → String
  | empty => "cannot parse integer from empty string"
  | invalidDigit => "invalid digit found in string"
  | tooLarge => "number too large to fit in target type"
  | tooSmall => "number too small to fit in target type"

/-- The value of a digit in base sixteen, of either case. -/
def digitValue? (c : Char) : Option Nat :=
  let n := c.toNat
  if 0x30 ≤ n ∧ n ≤ 0x39 then some (n - 0x30)
  else if 0x61 ≤ n ∧ n ≤ 0x66 then some (n - 0x61 + 10)
  else if 0x41 ≤ n ∧ n ≤ 0x46 then some (n - 0x41 + 10)
  else none

def isDigit (base : Nat) (c : Char) : Bool :=
  match digitValue? c with
  | some digit => digit < base
  | none => false

/-- Reads digits after a number read so far, as long as it stays within a limit. -/
def digitsWithin (base limit : Nat) (excess : NumeralFault) :
    Nat → List Char → Except NumeralFault Nat
  | n, [] => .ok n
  | n, c :: cs =>
    match digitValue? c with
    | none => .error .invalidDigit
    | some digit =>
      if base ≤ digit then .error .invalidDigit
      else if limit < base * n + digit then .error excess
      else digitsWithin base limit excess (base * n + digit) cs

/-- The digits after a sign, of which there has to be one. -/
def signedDigits (base limit : Nat) (excess : NumeralFault) (cs : List Char) :
    Except NumeralFault Nat :=
  if cs.isEmpty then .error .invalidDigit else digitsWithin base limit excess 0 cs

/-- The number of a decimal numeral with an optional sign, up to a largest number; a negative one can
be further from zero by one. -/
def decimal (largest : Nat) : List Char → Except NumeralFault Int
  | [] => .error .empty
  | '-' :: digits => do .ok (-(← signedDigits 10 (largest + 1) .tooSmall digits : Nat))
  | '+' :: digits => do .ok (← signedDigits 10 largest .tooLarge digits : Nat)
  | digits => do .ok (← digitsWithin 10 largest .tooLarge 0 digits : Nat)

def decimal32 (numeral : List Char) : Except NumeralFault Int32 := do
  .ok (Int32.ofInt (← decimal 0x7fffffff numeral))

def decimal64 (numeral : List Char) : Except NumeralFault Int64 := do
  .ok (Int64.ofInt (← decimal 0x7fffffffffffffff numeral))

/-- A number of 64 bits as one of 32, if it is in their range. -/
def narrow? (n : Int64) : Option Int32 :=
  if -0x80000000 ≤ n.toInt ∧ n.toInt ≤ 0x7fffffff then some n.toInt32 else none

/-- The number whose 32 bits a numeral in base sixteen gives. -/
def hexadecimal32 : List Char → Except NumeralFault Int32
  | [] => .error .empty
  | '+' :: digits => do
    .ok (UInt32.ofNat (← signedDigits 16 0xffffffff .tooLarge digits)).toInt32
  | ['-'] => .error .invalidDigit
  | digits => do .ok (UInt32.ofNat (← digitsWithin 16 0xffffffff .tooLarge 0 digits)).toInt32

end ResourceClasses.Text
