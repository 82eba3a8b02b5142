/-!
Numbers as bytes, the most significant byte first. Main statements: a word is read back from its
bytes.
-/

set_option autoImplicit false

namespace ResourceClasses

/-- The lowest bytes of a number, as many as asked for. -/
def bigEndian : Nat → Nat → List UInt8
  | 0, _ => []
  | width + 1, n => bigEndian width (n / 256) ++ [UInt8.ofNat n]

/-- The number that a list of bytes stands for. -/
def ofBigEndian (bytes : List UInt8) : Nat :=
  bytes.foldl (fun n byte => 256 * n + byte.toNat) 0

def word16 (n : UInt16) : List UInt8 :=
  bigEndian 2 n.toNat

def word32 (n : UInt32) : List UInt8 :=
  bigEndian 4 n.toNat

def word64 (n : UInt64) : List UInt8 :=
  bigEndian 8 n.toNat

@[simp]
theorem length_bigEndian (width n : Nat) : (bigEndian width n).length = width := by
  induction width generalizing n with
  | zero => rfl
  | succ width ih => simp [bigEndian, ih]

@[simp]
theorem ofBigEndian_append_singleton (bytes : List UInt8) (byte : UInt8) :
    ofBigEndian (bytes ++ [byte]) = 256 * ofBigEndian bytes + byte.toNat := by
  simp [ofBigEndian]

theorem ofBigEndian_word16 (n : UInt16) : ofBigEndian (word16 n) = n.toNat := by
  have := n.toNat_lt
  simp only [word16, bigEndian, ofBigEndian_append_singleton, UInt8.toNat_ofNat']
  simp only [ofBigEndian, List.foldl_nil]
  omega

theorem ofBigEndian_word32 (n : UInt32) : ofBigEndian (word32 n) = n.toNat := by
  have := n.toNat_lt
  simp only [word32, bigEndian, ofBigEndian_append_singleton, UInt8.toNat_ofNat']
  simp only [ofBigEndian, List.foldl_nil]
  omega

theorem ofBigEndian_word64 (n : UInt64) : ofBigEndian (word64 n) = n.toNat := by
  have := n.toNat_lt
  simp only [word64, bigEndian, ofBigEndian_append_singleton, UInt8.toNat_ofNat']
  simp only [ofBigEndian, List.foldl_nil]
  omega

end ResourceClasses
