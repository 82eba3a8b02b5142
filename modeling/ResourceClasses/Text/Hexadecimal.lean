/-!
Numbers in base sixteen, written in lower case.
-/

set_option autoImplicit false

namespace ResourceClasses.Text

/-- The hexadecimal digits of a number, without leading zeros. -/
def hexDigits (n : Nat) : List Char :=
  Nat.toDigits 16 n

/-- The hexadecimal digits of a number, filled up with zeros to at least the given width. -/
def hexPadded (width n : Nat) : List Char :=
  let digits := hexDigits n
  List.replicate (width - digits.length) '0' ++ digits

/-- The number after 0x, with at least the given number of digits. -/
def hexText (width n : Nat) : String :=
  String.ofList ('0' :: 'x' :: hexPadded width n)

end ResourceClasses.Text
