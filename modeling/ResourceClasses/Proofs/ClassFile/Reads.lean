import Mathlib.Data.List.Forall2
import Mathlib.Data.List.Induction
import ResourceClasses.ClassFile.Reader

/-!
What readers take: a reader takes some bytes for a value when it does so whatever follows them.
Readers of parts make readers of the whole, so a format is read back piece by piece.
-/

set_option autoImplicit false

namespace ResourceClasses

/-- The lowest bytes of a number that has no others give the number back. -/
theorem ofBigEndian_bigEndian_two {n : Nat} (small : n < 0x10000) :
    ofBigEndian (bigEndian 2 n) = n := by
  have word := ofBigEndian_word16 (UInt16.ofNat n)
  rw [word16, UInt16.toNat_ofNat'] at word
  rwa [Nat.mod_eq_of_lt small] at word

theorem ofBigEndian_bigEndian_four (n : Nat) :
    ofBigEndian (bigEndian 4 n) = n % 0x100000000 := by
  simp only [bigEndian, ofBigEndian_append_singleton, UInt8.toNat_ofNat']
  simp only [ofBigEndian, List.foldl_nil]
  omega

/-- The number that some bytes stand for needs no more bytes. -/
theorem ofBigEndian_lt (bytes : List UInt8) : ofBigEndian bytes < Nat.pow 256 bytes.length := by
  induction bytes using List.reverseRecOn with
  | nil => exact Nat.zero_lt_one
  | append_singleton bytes byte ih =>
    have low := byte.toNat_lt
    have more : Nat.pow 256 (bytes.length + 1) = Nat.pow 256 bytes.length * 256 := rfl
    rw [ofBigEndian_append_singleton, List.length_append, List.length_singleton, more]
    omega

namespace ClassFile

theorem Reader.splitExactly_eq {α : Type} (n : Nat) (taken items : List α) :
    splitExactly n taken items =
      if n ≤ items.length then some (taken.reverse ++ items.take n, items.drop n) else none := by
  induction n generalizing taken items with
  | zero => simp [splitExactly]
  | succ n ih =>
    cases items with
    | nil => rfl
    | cons item rest => simp [splitExactly, ih]

/-- Whether a reader takes exactly the given bytes for a value, whatever follows them. -/
def Reads {α : Type} (reader : Reader α) (bytes : List UInt8) (value : α) : Prop :=
  ∀ size rest, reader size (bytes ++ rest) = .ok (value, rest)

namespace Reads

open Reader

variable {α β : Type}

theorem pure (value : α) : Reads (Pure.pure value) [] value := by
  intro size rest
  rfl

theorem bind {reader : Reader α} {next : α → Reader β} {first second : List UInt8} {value : α}
    {result : β} (head : Reads reader first value) (tail : Reads (next value) second result) :
    Reads (reader >>= next) (first ++ second) result := by
  intro size rest
  have step : (reader >>= next) size (first ++ (second ++ rest)) =
      next value size (second ++ rest) := by
    simp only [Bind.bind, head size (second ++ rest)]
  rw [List.append_assoc, step, tail size rest]

theorem bind_nil {reader : Reader α} {next : α → Reader β} {bytes : List UInt8} {value : α}
    {result : β} (head : Reads reader bytes value) (tail : Reads (next value) [] result) :
    Reads (reader >>= next) bytes result := by
  have whole := head.bind tail
  rwa [List.append_nil] at whole

theorem map {reader : Reader α} {bytes : List UInt8} {value : α} (head : Reads reader bytes value)
    (f : α → β) : Reads (f <$> reader) bytes (f value) :=
  head.bind_nil (pure (f value))

theorem ofExcept {result : Except FormatError α} {value : α} (found : result = .ok value) :
    Reads (Reader.ofExcept result) [] value := by
  intro size rest
  rw [found]
  rfl

/-- A reader takes all of some data. -/
theorem run {reader : Reader α} {bytes : List UInt8} {value : α} (head : Reads reader bytes value) :
    reader.run bytes = .ok (value, []) := by
  have whole := head bytes.length []
  rwa [List.append_nil] at whole

theorem take (bytes : List UInt8) : Reads (Reader.take bytes.length) bytes bytes := by
  intro size rest
  rw [Reader.take, splitExactly_eq, if_pos (by simp), List.take_left, List.drop_left]
  rfl

theorem take_of_length {n : Nat} {bytes : List UInt8} (length : bytes.length = n) :
    Reads (Reader.take n) bytes bytes :=
  length ▸ take bytes

theorem number {width : Nat} {bytes : List UInt8} (length : bytes.length = width) :
    Reads (Reader.number width) bytes (ofBigEndian bytes) :=
  (take_of_length length).bind_nil (pure _)

/-- A count of two bytes is read back unless it is too large for them. -/
theorem count {n : Nat} (small : n < 0x10000) : Reads (Reader.number 2) (bigEndian 2 n) n := by
  have head := number (length_bigEndian 2 n)
  rwa [ofBigEndian_bigEndian_two small] at head

/-- A length of four bytes is read back unless it is too large for them. -/
theorem length {n : Nat} (small : n < 0x100000000) :
    Reads (Reader.number 4) (bigEndian 4 n) n := by
  have head := number (length_bigEndian 4 n)
  rwa [ofBigEndian_bigEndian_four, Nat.mod_eq_of_lt small] at head

theorem byte (b : UInt8) : Reads Reader.byte [b] b := by
  have head : Reads (Reader.number 1) [b] (ofBigEndian [b]) := number rfl
  have value : UInt8.ofNat (ofBigEndian [b]) = b := by simp [ofBigEndian]
  have whole : Reads Reader.byte [b] (UInt8.ofNat (ofBigEndian [b])) := head.bind_nil (pure _)
  rwa [value] at whole

theorem twoBytes (n : UInt16) : Reads Reader.twoBytes (word16 n) n := by
  have head : Reads (Reader.number 2) (word16 n) (ofBigEndian (word16 n)) :=
    number (length_bigEndian 2 n.toNat)
  rw [ofBigEndian_word16] at head
  have whole : Reads Reader.twoBytes (word16 n) (UInt16.ofNat n.toNat) :=
    head.bind_nil (pure _)
  rwa [UInt16.ofNat_toNat] at whole

theorem fourBytes (n : UInt32) : Reads Reader.fourBytes (word32 n) n := by
  have head : Reads (Reader.number 4) (word32 n) (ofBigEndian (word32 n)) :=
    number (length_bigEndian 4 n.toNat)
  rw [ofBigEndian_word32] at head
  have whole : Reads Reader.fourBytes (word32 n) (UInt32.ofNat n.toNat) :=
    head.bind_nil (pure _)
  rwa [UInt32.ofNat_toNat] at whole

theorem eightBytes (n : UInt64) : Reads Reader.eightBytes (word64 n) n := by
  have bound := n.toNat_lt
  have bytes : word64 n = bigEndian 4 (n.toNat / 0x100000000) ++ bigEndian 4 n.toNat := by
    simp only [word64, bigEndian, List.nil_append, List.append_assoc, Nat.div_div_eq_div_mul]
  have value : UInt64.ofNat (0x100000000 * (n.toNat / 0x100000000) + n.toNat % 0x100000000) = n := by
    rw [Nat.div_add_mod, UInt64.ofNat_toNat]
  have high : Reads (Reader.number 4) (bigEndian 4 (n.toNat / 0x100000000))
      (n.toNat / 0x100000000) := length (by omega)
  have low : Reads (Reader.number 4) (bigEndian 4 n.toNat) (n.toNat % 0x100000000) :=
    ofBigEndian_bigEndian_four n.toNat ▸ number (length_bigEndian 4 n.toNat)
  rw [bytes]
  refine high.bind (low.bind_nil ?_)
  rw [value]
  exact pure n

private theorem repeatedAfter {reader : Reader α} {pieces : List (List UInt8)} {values : List α}
    (each : List.Forall₂ (Reads reader) pieces values) (found : List α) :
    Reads (Reader.repeatedAfter reader values.length found) pieces.flatten
      (found.reverse ++ values) := by
  induction each generalizing found with
  | nil =>
    intro size rest
    simp [Reader.repeatedAfter]
  | @cons piece value _ _ head tail ih =>
    intro size rest
    have later := ih (value :: found) size rest
    rw [List.length_cons, Reader.repeatedAfter, List.flatten_cons, List.append_assoc]
    simp only [head size (_ ++ rest)]
    simpa using later

/-- Pieces that are each read are read one after the other. -/
theorem repeated {reader : Reader α} {pieces : List (List UInt8)} {values : List α}
    (each : List.Forall₂ (Reads reader) pieces values) :
    Reads (Reader.repeated values.length reader) pieces.flatten values :=
  repeatedAfter each []

theorem counted {reader : Reader α} {pieces : List (List UInt8)} {values : List α}
    (each : List.Forall₂ (Reads reader) pieces values) (few : values.length < 0x10000) :
    Reads (Reader.counted reader) (bigEndian 2 values.length ++ pieces.flatten) values :=
  (count few).bind (repeated each)

theorem counted_nil (reader : Reader α) : Reads (Reader.counted reader) (word16 0) [] := by
  have none : Reads (Reader.repeated 0 reader) [] [] := repeated .nil
  have zero : Reads (Reader.number 2) (word16 0) 0 := count (by decide)
  exact zero.bind_nil none

end Reads

end ClassFile

end ResourceClasses
