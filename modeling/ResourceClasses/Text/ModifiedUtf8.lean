import ResourceClasses.Collect

/-!
Modified UTF-8: each 16-bit unit of a text is written on its own, in one, two or three bytes, and
the unit zero takes two, so that no byte is zero and a supplementary character takes six.
-/

set_option autoImplicit false

namespace ResourceClasses.Text.ModifiedUtf8

/-- The 16-bit units of a character: itself, or a pair of surrogates beyond the first plane. -/
def units (c : Char) : List Nat :=
  if c.toNat < 0x10000 then [c.toNat]
  else [0xd800 + (c.toNat - 0x10000) / 0x400, 0xdc00 + (c.toNat - 0x10000) % 0x400]

def unitBytes (n : Nat) : List UInt8 :=
  if n ≠ 0 ∧ n < 0x80 then [UInt8.ofNat n]
  else if n < 0x800 then [UInt8.ofNat (0xc0 + n / 0x40), UInt8.ofNat (0x80 + n % 0x40)]
  else
    [UInt8.ofNat (0xe0 + n / 0x1000), UInt8.ofNat (0x80 + n / 0x40 % 0x40),
      UInt8.ofNat (0x80 + n % 0x40)]

/-- The bytes of a text. -/
def encode (s : String) : List UInt8 :=
  s.toList.flatMap fun c => (units c).flatMap unitBytes

/-- The low bits of a continuation byte. -/
def continuation? (byte : UInt8) : Option Nat :=
  if 0x80 ≤ byte.toNat ∧ byte.toNat < 0xc0 then some (byte.toNat - 0x80) else none

/-- The unit at the front of the bytes and what follows it; longer spellings than needed count. -/
def unit? : List UInt8 → Option (Nat × List UInt8)
  | [] => none
  | lead :: rest =>
    let n := lead.toNat
    if n = 0 then none
    else if n < 0x80 then some (n, rest)
    else if n < 0xc0 then none
    else if n < 0xe0 then
      match rest with
      | second :: rest => do
        let low ← continuation? second
        some ((n - 0xc0) * 0x40 + low, rest)
      | [] => none
    else if n < 0xf0 then
      match rest with
      | second :: third :: rest => do
        let middle ← continuation? second
        let low ← continuation? third
        some ((n - 0xe0) * 0x1000 + middle * 0x40 + low, rest)
      | _ => none
    else none

/-- The character at the front of the bytes and what follows it: one unit that is no surrogate, or
a high surrogate and a low one. -/
def char? (bytes : List UInt8) : Option (Char × List UInt8) := do
  let (high, rest) ← unit? bytes
  if high < 0xd800 ∨ 0xe000 ≤ high then
    some (Char.ofNat high, rest)
  else if high < 0xdc00 then
    let (low, rest) ← unit? rest
    if 0xdc00 ≤ low ∧ low < 0xe000 then
      some (Char.ofNat (0x10000 + (high - 0xd800) * 0x400 + (low - 0xdc00)), rest)
    else none
  else none

/-- One step of reading: the next character, or the end of the bytes. -/
def next (bytes : List UInt8) : Except Unit (Step Char (List UInt8)) :=
  if bytes.isEmpty then .ok (.done bytes)
  else
    match char? bytes with
    | some (char, rest) => .ok (.item char rest)
    | none => .error ()

def decode? (bytes : List UInt8) : Option String :=
  match collect List.length next bytes with
  | .ok (chars, _) => some (String.ofList chars)
  | .error _ => none

end ResourceClasses.Text.ModifiedUtf8
