import ResourceClasses.Text.ModifiedUtf8

/-!
Laws of modified UTF-8: each unit, each character and each text is read back from its bytes.
-/

set_option autoImplicit false

namespace ResourceClasses.Text.ModifiedUtf8

private theorem toNat_ofNat_of_lt {n : Nat} (small : n < 256) : (UInt8.ofNat n).toNat = n := by
  rw [UInt8.toNat_ofNat', Nat.mod_eq_of_lt small]

private theorem continuation?_ofNat {n : Nat} (small : n < 0x40) :
    continuation? (UInt8.ofNat (0x80 + n)) = some n := by
  have value : (UInt8.ofNat (0x80 + n)).toNat = 0x80 + n := toNat_ofNat_of_lt (by omega)
  have inside : 0x80 ≤ 0x80 + n ∧ 0x80 + n < 0xc0 := by omega
  rw [continuation?, value, if_pos inside, Nat.add_sub_cancel_left]

/-- A unit is read back from its bytes, whatever follows them. -/
theorem unit?_unitBytes {n : Nat} (small : n < 0x10000) (rest : List UInt8) :
    unit? (unitBytes n ++ rest) = some (n, rest) := by
  unfold unitBytes
  split
  · rename_i one
    have value : (UInt8.ofNat n).toNat = n := toNat_ofNat_of_lt (by omega)
    simp only [List.cons_append, List.nil_append, unit?, value]
    rw [if_neg one.1, if_pos one.2]
  · rename_i not_one
    split
    · rename_i two
      have value : (UInt8.ofNat (0xc0 + n / 0x40)).toNat = 0xc0 + n / 0x40 :=
        toNat_ofNat_of_lt (by omega)
      simp only [List.cons_append, List.nil_append, unit?, value,
        continuation?_ofNat (Nat.mod_lt n (by decide : 0 < 0x40))]
      rw [if_neg (by omega), if_neg (by omega), if_neg (by omega), if_pos (by omega)]
      simp only [Option.bind_eq_bind, Option.bind_some, Option.some.injEq, Prod.mk.injEq,
        and_true]
      omega
    · have value : (UInt8.ofNat (0xe0 + n / 0x1000)).toNat = 0xe0 + n / 0x1000 :=
        toNat_ofNat_of_lt (by omega)
      simp only [List.cons_append, List.nil_append, unit?, value,
        continuation?_ofNat (Nat.mod_lt n (by decide : 0 < 0x40)),
        continuation?_ofNat (Nat.mod_lt (n / 0x40) (by decide : 0 < 0x40))]
      rw [if_neg (by omega), if_neg (by omega), if_neg (by omega), if_neg (by omega),
        if_pos (by omega)]
      simp only [Option.bind_eq_bind, Option.bind_some, Option.some.injEq, Prod.mk.injEq,
        and_true]
      omega

/-- The bytes of a character. -/
def charBytes (c : Char) : List UInt8 :=
  (units c).flatMap unitBytes

/-- A character is no surrogate and stays below the end of the planes. -/
theorem toNat_inside (c : Char) : c.toNat < 0xd800 ∨ 0xdfff < c.toNat ∧ c.toNat < 0x110000 := by
  have valid := c.valid
  simp only [UInt32.isValidChar, Nat.isValidChar] at valid
  exact valid

/-- A unit that is a character is read as the character. -/
theorem char?_of_unit? {c : Char} {bytes rest : List UInt8}
    (found : unit? bytes = some (c.toNat, rest)) : char? bytes = some (c, rest) := by
  have inside := toNat_inside c
  have no_surrogate : c.toNat < 0xd800 ∨ 0xe000 ≤ c.toNat := by omega
  rw [char?, found]
  simp only [Option.bind_eq_bind, Option.bind_some, if_pos no_surrogate, Char.ofNat_toNat]

/-- A high surrogate and a low one are read as the character that they stand for. -/
theorem char?_of_pair {c : Char} {high low : Nat} {bytes middle rest : List UInt8}
    (first : unit? bytes = some (high, middle)) (second : unit? middle = some (low, rest))
    (high_inside : 0xd800 ≤ high ∧ high < 0xdc00) (low_inside : 0xdc00 ≤ low ∧ low < 0xe000)
    (value : c.toNat = 0x10000 + (high - 0xd800) * 0x400 + (low - 0xdc00)) :
    char? bytes = some (c, rest) := by
  have surrogate : ¬(high < 0xd800 ∨ 0xe000 ≤ high) := by omega
  rw [char?, first]
  simp only [Option.bind_eq_bind, Option.bind_some]
  rw [if_neg surrogate, if_pos high_inside.2, second]
  simp only [Option.bind_some, if_pos low_inside, ← value, Char.ofNat_toNat]

/-- A character is read back from its bytes, whatever follows them. -/
theorem char?_charBytes (c : Char) (rest : List UInt8) :
    char? (charBytes c ++ rest) = some (c, rest) := by
  have inside := toNat_inside c
  unfold charBytes units
  split
  · rename_i basic
    simp only [List.flatMap_cons, List.flatMap_nil, List.append_nil]
    exact char?_of_unit? (unit?_unitBytes basic rest)
  · rename_i supplementary
    simp only [List.flatMap_cons, List.flatMap_nil, List.append_nil, List.append_assoc]
    refine char?_of_pair (unit?_unitBytes ?_ _) (unit?_unitBytes ?_ rest) ⟨?_, ?_⟩ ⟨?_, ?_⟩ ?_ <;>
      omega

theorem length_lt_of_unit? {bytes rest : List UInt8} {n : Nat}
    (found : unit? bytes = some (n, rest)) : rest.length < bytes.length := by
  unfold unit? at found
  simp only [Option.bind_eq_bind] at found
  grind [Option.bind_eq_some_iff]

theorem length_lt_of_char? {bytes rest : List UInt8} {c : Char}
    (found : char? bytes = some (c, rest)) : rest.length < bytes.length := by
  simp only [char?, Option.bind_eq_bind, Option.bind_eq_some_iff, Prod.exists] at found
  obtain ⟨high, after, first, found⟩ := found
  have shorter := length_lt_of_unit? first
  split at found
  · simp only [Option.some.injEq, Prod.mk.injEq] at found
    rwa [← found.2]
  · split at found
    · simp only [Option.bind_eq_some_iff, Prod.exists] at found
      obtain ⟨low, last, second, found⟩ := found
      have shortest := length_lt_of_unit? second
      split at found
      · simp only [Option.some.injEq, Prod.mk.injEq] at found
        rw [← found.2]
        omega
      · contradiction
    · contradiction

/-- Reading takes bytes off with each character. -/
theorem length_lt_of_next (bytes : List UInt8) (c : Char) (rest : List UInt8)
    (taken : next bytes = .ok (.item c rest)) : rest.length < bytes.length := by
  unfold next at taken
  split at taken
  · cases taken
  · split at taken
    · rename_i found
      cases taken
      exact length_lt_of_char? found
    · cases taken

/-- A character that is read is the next one. -/
theorem next_of_char? {bytes rest : List UInt8} {c : Char} (found : char? bytes = some (c, rest)) :
    next bytes = .ok (.item c rest) := by
  have some_byte : bytes.isEmpty = false := by
    cases bytes with
    | nil => contradiction
    | cons => rfl
  rw [next, some_byte, found]
  rfl

private theorem collect_charBytes (chars : List Char) :
    collect List.length next (chars.flatMap charBytes) = .ok (chars, []) := by
  induction chars with
  | nil => rfl
  | cons c later ih =>
    have step := next_of_char? (char?_charBytes c (later.flatMap charBytes))
    rw [List.flatMap_cons, collect_eq List.length length_lt_of_next, step]
    simp only [ih, Except.map]

theorem encode_append (first second : String) :
    encode (first ++ second) = encode first ++ encode second := by
  rw [encode, String.toList_append, List.flatMap_append]
  rfl

theorem length_unitBytes (n : Nat) :
    (unitBytes n).length = if n ≠ 0 ∧ n < 0x80 then 1 else if n < 0x800 then 2 else 3 := by
  unfold unitBytes
  split
  · rfl
  · split <;> rfl

private theorem length_charBytes_le (c : Char) : (charBytes c).length ≤ 6 := by
  have unit : ∀ n, (unitBytes n).length ≤ 3 := by
    intro n
    rw [length_unitBytes]
    split
    · omega
    · split <;> omega
  unfold charBytes units
  split
  · have := unit c.toNat
    rw [List.flatMap_singleton]
    omega
  · have high := unit (0xd800 + (c.toNat - 0x10000) / 0x400)
    have low := unit (0xdc00 + (c.toNat - 0x10000) % 0x400)
    rw [List.flatMap_cons, List.flatMap_singleton, List.length_append]
    omega

theorem length_encode_le (text : String) : (encode text).length ≤ 6 * text.length := by
  have chars : ∀ chars : List Char, (chars.flatMap charBytes).length ≤ 6 * chars.length := by
    intro chars
    induction chars with
    | nil => exact Nat.le_refl 0
    | cons c later ih =>
      have := length_charBytes_le c
      rw [List.flatMap_cons, List.length_append, List.length_cons]
      omega
  rw [← String.length_toList]
  exact chars text.toList

/-- A text is read back from its bytes. -/
theorem decode?_encode (text : String) : decode? (encode text) = some text := by
  have chars : collect List.length next (encode text) = .ok (text.toList, []) :=
    collect_charBytes text.toList
  simp only [decode?, chars, String.ofList_toList]

end ResourceClasses.Text.ModifiedUtf8
