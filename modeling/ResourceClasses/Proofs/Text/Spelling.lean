import ResourceClasses.Proofs.Outcome
import ResourceClasses.Proofs.Text.ModifiedUtf8

/-!
Spellings of texts in modified UTF-8: groups of one to three bytes, each of which gives a 16-bit
unit. A unit may be spelled by a longer group than it needs, so a text has many spellings.

Main statements:
* `decode?_eq_some_iff`: the bytes that are read are the groups whose units are UTF-16.
* `encode_reversible`: every text is read back, from bytes that are neither zero nor above `0xef`.
* `decode?_iff_spelled`: the bytes that are written are the one shortest spelling of their text.
-/

set_option autoImplicit false

namespace ResourceClasses.Text.ModifiedUtf8

/-- Whether a byte can only stand behind another one of its group. -/
def Continues (byte : UInt8) : Prop :=
  0x80 ≤ byte.toNat ∧ byte.toNat ≤ 0xbf

/-- The bytes of one unit. -/
inductive Group
  | one (byte : UInt8) (inside : 0x01 ≤ byte.toNat ∧ byte.toNat ≤ 0x7f)
  | two (lead second : UInt8) (inside : 0xc0 ≤ lead.toNat ∧ lead.toNat ≤ 0xdf)
      (continues : Continues second)
  | three (lead second third : UInt8) (inside : 0xe0 ≤ lead.toNat ∧ lead.toNat ≤ 0xef)
      (continues : Continues second) (ends : Continues third)

namespace Group

def bytes : Group → List UInt8
  | one byte _ => [byte]
  | two lead second _ _ => [lead, second]
  | three lead second third _ _ _ => [lead, second, third]

/-- The unit of a group: seven bits of a single byte, or the low five or four bits of a lead byte
and six bits of each byte behind it. -/
def unit : Group → Nat
  | one byte _ => byte.toNat
  | two lead second _ _ => lead.toNat % 0x20 * 0x40 + second.toNat % 0x40
  | three lead second third _ _ _ =>
    lead.toNat % 0x10 * 0x1000 + second.toNat % 0x40 * 0x40 + third.toNat % 0x40

theorem unit_lt (group : Group) : group.unit < 0x10000 := by
  cases group with
  | one byte inside =>
    have small : byte.toNat ≤ 0x7f := inside.2
    simp only [unit]
    omega
  | two => simp only [unit]; omega
  | three => simp only [unit]; omega

/-- No byte of a group is zero, and none is above the lead bytes of groups of three. -/
theorem byte_inside {group : Group} {byte : UInt8} (member : byte ∈ group.bytes) :
    byte ≠ 0 ∧ byte.toNat < 0xf0 := by
  have of_range : 0x01 ≤ byte.toNat → byte.toNat < 0xf0 → byte ≠ 0 ∧ byte.toNat < 0xf0 := by
    intro positive below
    refine ⟨?_, below⟩
    rintro rfl
    exact absurd positive (by decide)
  cases group with
  | one single inside =>
    simp only [bytes, List.mem_singleton] at member
    subst member
    exact of_range (by omega) (by omega)
  | two lead second inside continues =>
    unfold Continues at continues
    simp only [bytes, List.mem_cons, List.not_mem_nil, or_false] at member
    rcases member with rfl | rfl
    · exact of_range (by omega) (by omega)
    · exact of_range (by omega) (by omega)
  | three lead second third inside continues ends =>
    unfold Continues at continues ends
    simp only [bytes, List.mem_cons, List.not_mem_nil, or_false] at member
    rcases member with rfl | rfl | rfl
    · exact of_range (by omega) (by omega)
    · exact of_range (by omega) (by omega)
    · exact of_range (by omega) (by omega)

end Group

private theorem continuation?_eq_some_iff {byte : UInt8} {n : Nat} :
    continuation? byte = some n ↔ Continues byte ∧ byte.toNat % 0x40 = n := by
  unfold continuation? Continues
  split
  · rw [Option.some.injEq]
    omega
  · simp only [reduceCtorEq, false_iff]
    omega

/-- A group is read as its unit, whatever follows it. -/
theorem unit?_bytes (group : Group) (rest : List UInt8) :
    unit? (group.bytes ++ rest) = some (group.unit, rest) := by
  cases group with
  | one byte inside =>
    simp only [Group.bytes, List.cons_append, List.nil_append, unit?]
    rw [if_neg (by omega), if_pos (by omega)]
    rfl
  | two lead second inside continues =>
    have low := continuation?_eq_some_iff.mpr ⟨continues, rfl⟩
    have high : lead.toNat % 0x20 = lead.toNat - 0xc0 := by omega
    simp only [Group.bytes, List.cons_append, List.nil_append, unit?, low, Group.unit, high]
    rw [if_neg (by omega), if_neg (by omega), if_neg (by omega), if_pos (by omega)]
    rfl
  | three lead second third inside continues ends =>
    have middle := continuation?_eq_some_iff.mpr ⟨continues, rfl⟩
    have low := continuation?_eq_some_iff.mpr ⟨ends, rfl⟩
    have high : lead.toNat % 0x10 = lead.toNat - 0xe0 := by omega
    simp only [Group.bytes, List.cons_append, List.nil_append, unit?, middle, low, Group.unit, high]
    rw [if_neg (by omega), if_neg (by omega), if_neg (by omega), if_neg (by omega),
      if_pos (by omega)]
    rfl

/-- Nothing but a group is read as a unit. -/
theorem exists_group_of_unit? {found rest : List UInt8} {n : Nat}
    (read : unit? found = some (n, rest)) :
    ∃ group : Group, found = group.bytes ++ rest ∧ group.unit = n := by
  cases found with
  | nil => contradiction
  | cons lead behind =>
    simp only [unit?] at read
    split at read
    · contradiction
    rename_i positive
    split at read
    · cases read
      exact ⟨.one lead ⟨by omega, by omega⟩, rfl, rfl⟩
    split at read
    · contradiction
    split at read
    · -- A lead byte of two, so there has to be another byte.
      cases behind with
      | nil => contradiction
      | cons second rest =>
        obtain ⟨low, continued, same⟩ := Option.bind_eq_some_iff.mp read
        obtain ⟨continues, rfl⟩ := continuation?_eq_some_iff.mp continued
        cases same
        refine ⟨.two lead second ⟨by omega, by omega⟩ continues, rfl, ?_⟩
        simp only [Group.unit]
        omega
    split at read
    · split at read
      · rename_i second third rest
        obtain ⟨middle, continued, read⟩ := Option.bind_eq_some_iff.mp read
        obtain ⟨low, ended, same⟩ := Option.bind_eq_some_iff.mp read
        obtain ⟨continues, rfl⟩ := continuation?_eq_some_iff.mp continued
        obtain ⟨ends, rfl⟩ := continuation?_eq_some_iff.mp ended
        cases same
        refine ⟨.three lead second third ⟨by omega, by omega⟩ continues ends, rfl, ?_⟩
        simp only [Group.unit]
        omega
      · contradiction
    · contradiction

/-- Whether 16-bit units are the UTF-16 of some characters: each unit is a character of the first
plane, or it is a high surrogate and goes with a low one behind it. -/
inductive IsUtf16 : List Nat → List Char → Prop
  | nil : IsUtf16 [] []
  | basic {c : Char} {found : List Nat} {chars : List Char} (small : c.toNat < 0x10000)
      (later : IsUtf16 found chars) : IsUtf16 (c.toNat :: found) (c :: chars)
  | pair {c : Char} {high low : Nat} {found : List Nat} {chars : List Char}
      (high_inside : 0xd800 ≤ high ∧ high < 0xdc00) (low_inside : 0xdc00 ≤ low ∧ low < 0xe000)
      (value : c.toNat = 0x10000 + (high - 0xd800) * 0x400 + (low - 0xdc00))
      (later : IsUtf16 found chars) : IsUtf16 (high :: low :: found) (c :: chars)

/-- The UTF-16 of some characters is that of each of them. -/
theorem IsUtf16.eq_flatMap_units {found : List Nat} {chars : List Char}
    (utf16 : IsUtf16 found chars) : found = chars.flatMap units := by
  induction utf16 with
  | nil => rfl
  | basic small _ ih => rw [List.flatMap_cons, units, if_pos small, List.singleton_append, ih]
  | @pair c high low found chars high_inside low_inside value _ ih =>
    have large : ¬c.toNat < 0x10000 := by omega
    have first : 0xd800 + (c.toNat - 0x10000) / 0x400 = high := by omega
    have second : 0xdc00 + (c.toNat - 0x10000) % 0x400 = low := by omega
    rw [List.flatMap_cons, units, if_neg large, first, second, ih]
    rfl

private theorem toNat_ofNat_of_valid {n : Nat} (valid : n.isValidChar) :
    (Char.ofNat n).toNat = n := by
  rw [Char.ofNat, dif_pos valid]
  rfl

/-- A character is read from the groups of its UTF-16. -/
private theorem exists_groups_of_char? {found rest : List UInt8} {c : Char}
    (read : char? found = some (c, rest)) :
    ∃ groups : List Group, found = groups.flatMap Group.bytes ++ rest ∧
      ∀ later chars, IsUtf16 later chars →
        IsUtf16 (groups.map Group.unit ++ later) (c :: chars) := by
  simp only [char?, Option.bind_eq_bind, Option.bind_eq_some_iff, Prod.exists] at read
  obtain ⟨n, middle, first, read⟩ := read
  obtain ⟨group, rfl, rfl⟩ := exists_group_of_unit? first
  have small := group.unit_lt
  split at read
  · rename_i no_surrogate
    cases read
    have valid : group.unit.isValidChar := by
      unfold Nat.isValidChar
      omega
    have value := toNat_ofNat_of_valid valid
    refine ⟨[group], by simp, ?_⟩
    intro later chars utf16
    have step := IsUtf16.basic (value.symm ▸ small) utf16
    rwa [value] at step
  · split at read
    · simp only [Option.bind_eq_some_iff, Prod.exists] at read
      obtain ⟨low, last, second, read⟩ := read
      obtain ⟨other, rfl, rfl⟩ := exists_group_of_unit? second
      split at read
      · rename_i high low
        simp only [Option.some.injEq, Prod.mk.injEq] at read
        obtain ⟨rfl, rfl⟩ := read
        have valid : Nat.isValidChar
            (0x10000 + (group.unit - 0xd800) * 0x400 + (other.unit - 0xdc00)) := by
          unfold Nat.isValidChar
          omega
        refine ⟨[group, other], by simp, ?_⟩
        intro later chars utf16
        exact .pair ⟨by omega, by omega⟩ low (toNat_ofNat_of_valid valid) utf16
      · contradiction
    · contradiction

private theorem exists_groups_of_collects {found last : List UInt8} {chars : List Char}
    (collects : Collects next found chars last) :
    ∃ groups : List Group, groups.flatMap Group.bytes = found ∧
      IsUtf16 (groups.map Group.unit) chars := by
  induction collects with
  | @done found last ends =>
    unfold next at ends
    split at ends
    · rename_i empty
      rw [List.isEmpty_iff.mp empty]
      exact ⟨[], rfl, .nil⟩
    · split at ends <;> cases ends
  | @item found rest last c chars taken _ ih =>
    unfold next at taken
    split at taken
    · cases taken
    · split at taken
      · rename_i read
        cases taken
        obtain ⟨front, split, utf16⟩ := exists_groups_of_char? read
        obtain ⟨groups, rfl, later⟩ := ih
        refine ⟨front ++ groups, ?_, ?_⟩
        · rw [List.flatMap_append, split]
        · rw [List.map_append]
          exact utf16 _ _ later
      · contradiction

private theorem collects_of_isUtf16 {found : List Nat} {chars : List Char}
    (utf16 : IsUtf16 found chars) {groups : List Group} (same : groups.map Group.unit = found) :
    Collects next (groups.flatMap Group.bytes) chars [] := by
  induction utf16 generalizing groups with
  | nil =>
    rw [List.map_eq_nil_iff.mp same]
    exact .done rfl
  | basic _ _ ih =>
    obtain ⟨group, later, rfl, value, rest⟩ := List.map_eq_cons_iff.mp same
    have read := unit?_bytes group (later.flatMap Group.bytes)
    rw [value] at read
    rw [List.flatMap_cons]
    exact .item (next_of_char? (char?_of_unit? read)) (ih rest)
  | pair high_inside low_inside value _ ih =>
    obtain ⟨first, behind, rfl, rfl, rest⟩ := List.map_eq_cons_iff.mp same
    obtain ⟨second, later, rfl, rfl, last⟩ := List.map_eq_cons_iff.mp rest
    rw [List.flatMap_cons, List.flatMap_cons]
    exact .item (next_of_char? (char?_of_pair (unit?_bytes first _) (unit?_bytes second _)
      high_inside low_inside value)) (ih last)

/-- What is read is a list of groups whose units are the UTF-16 of the text. -/
theorem decode?_eq_some_iff {bytes : List UInt8} {text : String} :
    decode? bytes = some text ↔
      ∃ groups : List Group, groups.flatMap Group.bytes = bytes ∧
        IsUtf16 (groups.map Group.unit) text.toList := by
  constructor
  · intro decoded
    unfold decode? at decoded
    split at decoded
    · rename_i chars last collected
      cases decoded
      rw [String.toList_ofList]
      exact exists_groups_of_collects ((collect_eq_ok_iff length_lt_of_next).mp collected)
    · contradiction
  · rintro ⟨groups, rfl, utf16⟩
    have collected := (collect_eq_ok_iff length_lt_of_next).mpr (collects_of_isUtf16 utf16 rfl)
    simp only [decode?, collected, String.ofList_toList]

/-- Every text is read back from its bytes, none of which is zero or above `0xef`; so different
texts have different bytes. -/
theorem encode_reversible (text : String) :
    decode? (encode text) = some text ∧
      (∀ byte ∈ encode text, byte ≠ 0 ∧ byte.toNat < 0xf0) ∧ Function.Injective encode := by
  have decoded := decode?_encode text
  refine ⟨decoded, ?_, ?_⟩
  · obtain ⟨groups, spelled, -⟩ := decode?_eq_some_iff.mp decoded
    intro byte member
    rw [← spelled, List.mem_flatMap] at member
    obtain ⟨group, -, inside⟩ := member
    exact Group.byte_inside inside
  · intro first second same
    have both := decode?_encode first
    rw [same, decode?_encode second, Option.some.injEq] at both
    exact both.symm

namespace Group

/-- A unit is written in no more bytes than any group spells it with. -/
theorem length_unitBytes_le (group : Group) :
    (unitBytes group.unit).length ≤ group.bytes.length := by
  rw [length_unitBytes]
  cases group with
  | one byte inside =>
    have single : byte.toNat ≠ 0 ∧ byte.toNat < 0x80 := by omega
    rw [unit, if_pos single]
    exact Nat.le_refl 1
  | two lead second inside continues =>
    have below : lead.toNat % 0x20 * 0x40 + second.toNat % 0x40 < 0x800 := by omega
    rw [unit, if_pos below]
    split
    · exact Nat.le_succ 1
    · exact Nat.le_refl 2
  | three lead second third inside continues ends =>
    show _ ≤ 3
    split
    · decide
    · split <;> decide

private theorem ofNat_eq_of_toNat {n : Nat} {byte : UInt8} (same : n = byte.toNat) :
    UInt8.ofNat n = byte := by
  rw [same, UInt8.ofNat_toNat]

/-- A group that is as short as its unit allows is the one that is written. -/
theorem unitBytes_eq_of_length (group : Group)
    (short : (unitBytes group.unit).length = group.bytes.length) :
    unitBytes group.unit = group.bytes := by
  rw [length_unitBytes] at short
  generalize value : group.unit = n at short ⊢
  cases group with
  | one byte inside =>
    have same : byte.toNat = n := value
    have single : n ≠ 0 ∧ n < 0x80 := by omega
    rw [unitBytes, if_pos single, ofNat_eq_of_toNat same.symm]
    rfl
  | two lead second inside continues =>
    unfold Continues at continues
    simp only [unit] at value
    split at short
    · exact absurd (show 1 = 2 from short) (by decide)
    · rename_i not_one
      have first : 0xc0 + n / 0x40 = lead.toNat := by omega
      have last : 0x80 + n % 0x40 = second.toNat := by omega
      rw [unitBytes, if_neg not_one, if_pos (by omega), ofNat_eq_of_toNat first,
        ofNat_eq_of_toNat last]
      rfl
  | three lead second third inside continues ends =>
    unfold Continues at continues ends
    simp only [unit] at value
    split at short
    · exact absurd (show 1 = 3 from short) (by decide)
    · rename_i not_one
      split at short
      · exact absurd (show 2 = 3 from short) (by decide)
      · rename_i not_two
        have first : 0xe0 + n / 0x1000 = lead.toNat := by omega
        have middle : 0x80 + n / 0x40 % 0x40 = second.toNat := by omega
        have last : 0x80 + n % 0x40 = third.toNat := by omega
        rw [unitBytes, if_neg not_one, if_neg not_two, ofNat_eq_of_toNat first,
          ofNat_eq_of_toNat middle, ofNat_eq_of_toNat last]
        rfl

/-- The units of some groups are written in no more bytes than the groups have, and in as many only
if the groups are written themselves. -/
private theorem shortest (groups : List Group) :
    ((groups.map unit).flatMap unitBytes).length ≤ (groups.flatMap bytes).length ∧
      (((groups.map unit).flatMap unitBytes).length = (groups.flatMap bytes).length →
        (groups.map unit).flatMap unitBytes = groups.flatMap bytes) := by
  induction groups with
  | nil => exact ⟨Nat.le_refl 0, fun _ => rfl⟩
  | cons group later ih =>
    obtain ⟨no_longer, same⟩ := ih
    have head := group.length_unitBytes_le
    simp only [List.map_cons, List.flatMap_cons, List.length_append]
    refine ⟨Nat.add_le_add head no_longer, ?_⟩
    intro lengths
    rw [unitBytes_eq_of_length group (by omega), same (by omega)]

end Group

/-- The bytes that are read as a text are the groups whose units are its UTF-16; and the bytes that
the text is written to are read as it, and are the only ones among them that are so short. -/
theorem decode?_iff_spelled (bytes : List UInt8) (text : String) :
    (decode? bytes = some text ↔
      ∃ groups : List Group, groups.flatMap Group.bytes = bytes ∧
        IsUtf16 (groups.map Group.unit) text.toList) ∧
    decode? (encode text) = some text ∧
    (decode? bytes = some text → (encode text).length ≤ bytes.length ∧
      ((encode text).length = bytes.length → encode text = bytes)) := by
  refine ⟨decode?_eq_some_iff, decode?_encode text, ?_⟩
  intro decoded
  obtain ⟨groups, rfl, utf16⟩ := decode?_eq_some_iff.mp decoded
  have written : encode text = (groups.map Group.unit).flatMap unitBytes := by
    rw [utf16.eq_flatMap_units, List.flatMap_assoc]
    rfl
  rw [written]
  exact Group.shortest groups

/-- A letter that is spelled in two bytes, and a character beyond the first plane. -/
def overlong : List UInt8 :=
  [0xc1, 0x81, 0xed, 0xa0, 0xbd, 0xed, 0xb8, 0x80]

theorem decode?_iff_spelled_overlong :
    decode? overlong = some "A😀" ∧ (encode "A😀").length < overlong.length := by
  have decoded : decode? overlong = some "A😀" := rfl
  have other : encode "A😀" ≠ overlong := by decide
  obtain ⟨no_longer, same⟩ := (decode?_iff_spelled overlong "A😀").2.2 decoded
  exact ⟨decoded, Nat.lt_of_le_of_ne no_longer (mt same other)⟩

end ResourceClasses.Text.ModifiedUtf8
