import ResourceClasses.BigEndian
import ResourceClasses.ClassFile.Error

/-!
Readers: steps that take a value off the front of some data.

A reader knows the size of all of the data, because that is where data that ends too soon ends.
-/

set_option autoImplicit false

namespace ResourceClasses.ClassFile

/-- Takes a value off the front of the bytes that are left of data of a given size. -/
def Reader (α : Type) : Type :=
  Nat → List UInt8 → Except FormatError (α × List UInt8)

namespace Reader

instance : Monad Reader where
  pure value := fun _ rest => .ok (value, rest)
  bind first next := fun size bytes =>
    match first size bytes with
    | .error e => .error e
    | .ok (value, rest) => next value size rest

/-- Reads from the start of some data. -/
def run {α : Type} (reader : Reader α) (data : List UInt8) : Except FormatError (α × List UInt8) :=
  reader data.length data

/-- A result that takes nothing off the data. -/
def ofExcept {α : Type} (result : Except FormatError α) : Reader α := fun _ bytes =>
  match result with
  | .ok value => .ok (value, bytes)
  | .error e => .error e

/-- Splits a list after the given number of items, if it has that many, after the items that are
given with the last one first. -/
def splitExactly {α : Type} : Nat → List α → List α → Option (List α × List α)
  | 0, taken, rest => some (taken.reverse, rest)
  | n + 1, taken, item :: rest => splitExactly n (item :: taken) rest
  | _ + 1, _, [] => none

/-- The given number of bytes. -/
def take (n : Nat) : Reader (List UInt8) := fun size bytes =>
  match splitExactly n [] bytes with
  | some found => .ok found
  | none => .error (.unexpectedEof size)

/-- The number that the given number of bytes stands for. -/
def number (width : Nat) : Reader Nat := do
  pure (ofBigEndian (← take width))

def byte : Reader UInt8 := do
  pure (UInt8.ofNat (← number 1))

def twoBytes : Reader UInt16 := do
  pure (UInt16.ofNat (← number 2))

def fourBytes : Reader UInt32 := do
  pure (UInt32.ofNat (← number 4))

def eightBytes : Reader UInt64 := do
  let high ← number 4
  let low ← number 4
  pure (UInt64.ofNat (0x100000000 * high + low))

/-- As many values as asked for, after those that are given with the last one first. -/
@[specialize]
def repeatedAfter {α : Type} (reader : Reader α) : Nat → List α → Reader (List α)
  | 0, found => fun _ rest => .ok (found.reverse, rest)
  | n + 1, found => fun size bytes =>
    match reader size bytes with
    | .error e => .error e
    | .ok (value, rest) => repeatedAfter reader n (value :: found) size rest

def repeated {α : Type} (n : Nat) (reader : Reader α) : Reader (List α) :=
  repeatedAfter reader n []

/-- A list of values after its length. -/
def counted {α : Type} (reader : Reader α) : Reader (List α) := do
  let count ← number 2
  repeated count reader

end Reader

end ResourceClasses.ClassFile
