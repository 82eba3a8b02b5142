import Mathlib.Data.List.TakeWhile
import ResourceClasses.ClassFile.Descriptor
import ResourceClasses.Proofs.Outcome

/-!
The grammar of descriptors: the types of values as syntax trees with the characters that spell them.
No text is spelled by two of them, and the slots that are read from a text are those of the types
that spell it. The slots of arguments are read in sixteen bits: up to 65535 they are the sum, and
beyond it what is left of the sum.
-/

set_option autoImplicit false

namespace ResourceClasses.ClassFile.Descriptor

/-- The types that a single letter stands for. -/
inductive Primitive
  | byte
  | char
  | double
  | float
  | int
  | long
  | short
  | boolean
  deriving DecidableEq, Repr

namespace Primitive

def letter : Primitive → Char
  | byte => 'B'
  | char => 'C'
  | double => 'D'
  | float => 'F'
  | int => 'I'
  | long => 'J'
  | short => 'S'
  | boolean => 'Z'

def slots : Primitive → Nat
  | double | long => 2
  | byte | char | float | int | short | boolean => 1

theorem letter_injective : Function.Injective letter := by
  intro kind other same
  cases kind <;> cases other <;> first | rfl | exact absurd same (by decide)

theorem slotsOf_letter (kind : Primitive) : slotsOf kind.letter = kind.slots := by
  cases kind <;> rfl

theorem exists_letter {c : Char} (listed : "BCDFIJSZ".toList.contains c = true) :
    ∃ kind : Primitive, kind.letter = c := by
  have cases_of : c = 'B' ∨ c = 'C' ∨ c = 'D' ∨ c = 'F' ∨ c = 'I' ∨ c = 'J' ∨ c = 'S' ∨ c = 'Z' := by
    simpa using listed
  rcases cases_of with rfl | rfl | rfl | rfl | rfl | rfl | rfl | rfl
  · exact ⟨byte, rfl⟩
  · exact ⟨char, rfl⟩
  · exact ⟨double, rfl⟩
  · exact ⟨float, rfl⟩
  · exact ⟨int, rfl⟩
  · exact ⟨long, rfl⟩
  · exact ⟨short, rfl⟩
  · exact ⟨boolean, rfl⟩

end Primitive

/-- The name of a class in a descriptor: its end is the first semicolon. -/
@[ext]
structure ClassName where
  chars : List Char
  nonempty : chars ≠ []
  no_semicolon : ';' ∉ chars

/-- The type of a value. -/
inductive ValueType
  | primitive (kind : Primitive)
  | object (name : ClassName)
  | array (element : ValueType)

namespace ValueType

def chars : ValueType → List Char
  | primitive kind => [kind.letter]
  | object name => 'L' :: (name.chars ++ [';'])
  | array element => '[' :: element.chars

def slots : ValueType → Nat
  | primitive kind => kind.slots
  | object _ | array _ => 1

/-- The first character of a type tells its slots. -/
theorem exists_chars_eq_cons (type : ValueType) :
    ∃ first others, type.chars = first :: others ∧ slotsOf first = type.slots := by
  cases type with
  | primitive kind => exact ⟨kind.letter, [], rfl, kind.slotsOf_letter⟩
  | object name => exact ⟨'L', _, rfl, rfl⟩
  | array element => exact ⟨'[', _, rfl, rfl⟩

end ValueType

/-- A class name is passed over up to its semicolon. -/
private theorem afterClassName_chars (name : ClassName) (rest : List Char) :
    afterClassName (name.chars ++ ';' :: rest) = some rest := by
  have passed : (name.chars ++ ';' :: rest).dropWhile (· ≠ ';') = ';' :: rest := by
    rw [List.dropWhile_append_of_pos]
    · simp
    · intro c member
      have different : c ≠ ';' := fun same => name.no_semicolon (same ▸ member)
      simpa using different
  have start : (name.chars ++ ';' :: rest).head? ≠ some ';' := by
    obtain ⟨c, others, spelled⟩ := List.exists_cons_of_ne_nil name.nonempty
    have different : c ≠ ';' := by
      rintro rfl
      exact name.no_semicolon (spelled ▸ List.mem_cons_self)
    simpa [spelled] using different
  rw [afterClassName, passed]
  simp only [if_neg start]

private theorem exists_className {cs rest : List Char} (read : afterClassName cs = some rest) :
    ∃ name : ClassName, cs = name.chars ++ ';' :: rest := by
  unfold afterClassName at read
  split at read
  · rename_i c _ found
    split at read
    · contradiction
    · rename_i start
      cases read
      have stopped := List.head_dropWhile_not (· ≠ ';') (found ▸ List.cons_ne_nil c rest)
      have ends : c = ';' := by
        simp only [found, List.head_cons] at stopped
        simpa using stopped
      subst ends
      have whole : cs.takeWhile (· ≠ ';') ++ ';' :: rest = cs := by
        rw [← found, List.takeWhile_append_dropWhile]
      refine ⟨⟨cs.takeWhile (· ≠ ';'), ?_, ?_⟩, whole.symm⟩
      · intro empty
        rw [empty, List.nil_append] at whole
        exact start (by rw [← whole]; rfl)
      · intro member
        have differs := List.mem_takeWhile_imp member
        simp at differs
  · contradiction

/-- A type is passed over, whatever follows it. -/
theorem afterType_chars (type : ValueType) (rest : List Char) :
    afterType (type.chars ++ rest) = some rest := by
  induction type with
  | primitive kind => cases kind <;> rfl
  | object name =>
    have spelled : (ValueType.object name).chars ++ rest =
        'L' :: (name.chars ++ ';' :: rest) := by
      simp [ValueType.chars]
    rw [spelled, afterType, afterClassName_chars]
  | array element ih =>
    rw [ValueType.chars, List.cons_append, afterType]
    exact ih

/-- Nothing but a type is passed over. -/
theorem exists_valueType {cs rest : List Char} (read : afterType cs = some rest) :
    ∃ type : ValueType, cs = type.chars ++ rest := by
  fun_induction afterType cs with
  | case1 others ih =>
    obtain ⟨element, rfl⟩ := ih read
    exact ⟨.array element, rfl⟩
  | case2 others =>
    obtain ⟨name, rfl⟩ := exists_className read
    exact ⟨.object name, by simp [ValueType.chars]⟩
  | case3 c others not_array not_object listed =>
    obtain ⟨kind, rfl⟩ := Primitive.exists_letter listed
    cases read
    exact ⟨.primitive kind, rfl⟩
  | case4 c others not_array not_object foreign => contradiction
  | case5 => contradiction

theorem valueType?_eq_some_iff {cs rest : List Char} {slots : Nat} :
    valueType? cs = some (slots, rest) ↔
      ∃ type : ValueType, cs = type.chars ++ rest ∧ type.slots = slots := by
  constructor
  · intro read
    cases cs with
    | nil => contradiction
    | cons c others =>
      obtain ⟨left, passed, same⟩ := Option.map_eq_some_iff.mp read
      cases same
      obtain ⟨type, spelled⟩ := exists_valueType passed
      obtain ⟨first, more, chars, slots⟩ := type.exists_chars_eq_cons
      have head : c = first := by
        rw [chars, List.cons_append] at spelled
        exact (List.cons.inj spelled).1
      exact ⟨type, spelled, by rw [head, slots]⟩
  · rintro ⟨type, rfl, rfl⟩
    obtain ⟨first, more, chars, slots⟩ := type.exists_chars_eq_cons
    have passed := afterType_chars type rest
    rw [chars, List.cons_append] at passed ⊢
    rw [valueType?, passed, slots]
    rfl

namespace ValueType

private theorem chars_injective : Function.Injective chars := by
  intro type other same
  induction type generalizing other with
  | primitive kind =>
    cases other with
    | primitive second =>
      have letters : kind.letter = second.letter := by simpa [chars] using same
      rw [Primitive.letter_injective letters]
    | object name => simp [chars] at same
    | array element => cases kind <;> simp [chars, Primitive.letter] at same
  | object name =>
    cases other with
    | primitive kind => simp [chars] at same
    | object second =>
      have names : name.chars = second.chars := by simpa [chars] using same
      rw [ClassName.ext names]
    | array element => simp [chars] at same
  | array element ih =>
    cases other with
    | primitive kind => cases kind <;> simp [chars, Primitive.letter] at same
    | object name => simp [chars] at same
    | array second =>
      have elements : element.chars = second.chars := by simpa [chars] using same
      rw [ih elements]

theorem head_ne_parenthesis {type : ValueType} {rest left : List Char} :
    type.chars ++ rest ≠ ')' :: left := by
  intro same
  have passed := afterType_chars type rest
  rw [same] at passed
  contradiction

/-- Where a type ends is told by the type itself, so what follows it is found again. -/
theorem eq_of_chars_append {type other : ValueType} {rest left : List Char}
    (same : type.chars ++ rest = other.chars ++ left) : type = other ∧ rest = left := by
  have ends : some rest = some left := by
    rw [← afterType_chars type, ← afterType_chars other, same]
  have rests : rest = left := Option.some.inj ends
  subst rests
  exact ⟨chars_injective (List.append_cancel_right same), rfl⟩

end ValueType

/-- What a method returns. -/
inductive ReturnType
  | void
  | value (type : ValueType)

namespace ReturnType

def chars : ReturnType → List Char
  | void => ['V']
  | value type => type.chars

def slots : ReturnType → Nat
  | void => 0
  | value type => type.slots

end ReturnType

private theorem valueType_ne_void (type : ValueType) (rest : List Char) :
    type.chars ++ rest ≠ ['V'] := by
  intro same
  have passed := afterType_chars type rest
  rw [same] at passed
  contradiction

private theorem returnType_chars_injective : Function.Injective ReturnType.chars := by
  intro type other same
  cases type with
  | void =>
    cases other with
    | void => rfl
    | value second =>
      have differs := valueType_ne_void second []
      rw [List.append_nil] at differs
      exact absurd same.symm differs
  | value first =>
    cases other with
    | void =>
      have differs := valueType_ne_void first []
      rw [List.append_nil] at differs
      exact absurd same differs
    | value second => rw [ValueType.chars_injective same]

theorem wholeType?_eq_some_iff {cs : List Char} {slots : Nat} :
    wholeType? cs = some slots ↔ ∃ type : ReturnType, type.chars = cs ∧ type.slots = slots := by
  constructor
  · intro read
    unfold wholeType? at read
    split at read
    · rename_i void
      cases read
      exact ⟨.void, void.symm, rfl⟩
    · split at read
      · rename_i known
        cases read
        obtain ⟨type, spelled, same⟩ := valueType?_eq_some_iff.mp known
        rw [List.append_nil] at spelled
        exact ⟨.value type, spelled.symm, same⟩
      · contradiction
  · rintro ⟨type, rfl, rfl⟩
    cases type with
    | void => rfl
    | value type =>
      have known : valueType? type.chars = some (type.slots, []) :=
        valueType?_eq_some_iff.mpr ⟨type, (List.append_nil _).symm, rfl⟩
      have some_value : type.chars ≠ ['V'] := by
        have differs := valueType_ne_void type []
        rwa [List.append_nil] at differs
      rw [ReturnType.chars, wholeType?, if_neg some_value, known]
      rfl

/-- The types of the arguments and of the result of a method. -/
structure Signature where
  arguments : List ValueType
  result : ReturnType

namespace Signature

def chars (signature : Signature) : List Char :=
  '(' :: (signature.arguments.flatMap ValueType.chars ++ ')' :: signature.result.chars)

/-- The slots of the arguments together. -/
def argumentSlots (signature : Signature) : Nat :=
  total (signature.arguments.map ValueType.slots)

private theorem eq_of_arguments {types others : List ValueType} {rest left : List Char}
    (same : types.flatMap ValueType.chars ++ ')' :: rest =
      others.flatMap ValueType.chars ++ ')' :: left) : types = others ∧ rest = left := by
  induction types generalizing others with
  | nil =>
    cases others with
    | nil => exact ⟨rfl, (List.cons.inj same).2⟩
    | cons other more =>
      rw [List.flatMap_cons, List.append_assoc] at same
      exact absurd same.symm ValueType.head_ne_parenthesis
  | cons type types ih =>
    cases others with
    | nil =>
      rw [List.flatMap_cons, List.append_assoc] at same
      exact absurd same ValueType.head_ne_parenthesis
    | cons other more =>
      simp only [List.flatMap_cons, List.append_assoc] at same
      obtain ⟨rfl, behind⟩ := ValueType.eq_of_chars_append same
      obtain ⟨rfl, rests⟩ := ih behind
      exact ⟨rfl, rests⟩

private theorem chars_injective : Function.Injective chars := by
  rintro ⟨arguments, result⟩ ⟨others, returned⟩ same
  obtain ⟨rfl, results⟩ := eq_of_arguments (List.cons.inj same).2
  exact congrArg (Signature.mk arguments) (returnType_chars_injective results)

end Signature

private theorem argument_done_iff {cs last : List Char} :
    argument cs = .ok (.done last) ↔ last = cs ∧ ∃ rest, cs = ')' :: rest := by
  unfold argument
  split
  · rename_i rest
    constructor
    · intro ends
      cases ends
      exact ⟨rfl, rest, rfl⟩
    · rintro ⟨rfl, -⟩
      rfl
  · rename_i other
    constructor
    · intro ends
      split at ends
      · cases ends
      · contradiction
    · rintro ⟨-, rest, same⟩
      exact absurd same (other rest)

private theorem argument_item_iff {cs rest : List Char} {slots : Nat} :
    argument cs = .ok (.item slots rest) ↔
      ∃ type : ValueType, cs = type.chars ++ rest ∧ type.slots = slots := by
  rw [← valueType?_eq_some_iff]
  unfold argument
  split
  · constructor
    · intro taken
      cases taken
    · intro read
      contradiction
  · split
    · rename_i known
      rw [known]
      simp
    · rename_i unknown
      rw [unknown]
      simp

private theorem argument_shrinks (cs : List Char) (slots : Nat) (rest : List Char)
    (taken : argument cs = .ok (.item slots rest)) : rest.length < cs.length := by
  obtain ⟨type, rfl, -⟩ := argument_item_iff.mp taken
  obtain ⟨first, others, chars, -⟩ := type.exists_chars_eq_cons
  rw [chars, List.length_append, List.length_cons]
  omega

/-- The arguments of a method are collected up to the parenthesis behind them. -/
private theorem collects_arguments_iff {cs last : List Char} {slots : List Nat} :
    Collects argument cs slots last ↔
      ∃ types : List ValueType, cs = types.flatMap ValueType.chars ++ last ∧
        types.map ValueType.slots = slots ∧ ∃ rest, last = ')' :: rest := by
  constructor
  · intro collects
    induction collects with
    | done ends =>
      obtain ⟨rfl, closed⟩ := argument_done_iff.mp ends
      exact ⟨[], rfl, rfl, closed⟩
    | item taken _ ih =>
      obtain ⟨type, rfl, rfl⟩ := argument_item_iff.mp taken
      obtain ⟨types, rfl, rfl, closed⟩ := ih
      exact ⟨type :: types, by simp, rfl, closed⟩
  · rintro ⟨types, rfl, rfl, rest, rfl⟩
    induction types with
    | nil => exact .done (argument_done_iff.mpr ⟨rfl, rest, rfl⟩)
    | cons type types ih =>
      refine .item (argument_item_iff.mpr ⟨type, ?_, rfl⟩) ih
      rw [List.flatMap_cons, List.append_assoc]

private theorem fieldSlots_eq_ok_iff {descriptor : String} {slots : Nat} :
    fieldSlots descriptor = .ok slots ↔
      ∃ type : ReturnType, type.chars = descriptor.toList ∧ type.slots = slots := by
  rw [← wholeType?_eq_some_iff]
  unfold fieldSlots
  split
  · rename_i known
    rw [known]
    simp
  · rename_i unknown
    rw [unknown]
    simp

private theorem methodSlots_eq_ok_iff {descriptor : String} {arguments result : Nat} :
    methodSlots descriptor = .ok (arguments, result) ↔
      ∃ signature : Signature, signature.chars = descriptor.toList ∧
        signature.argumentSlots % 65536 = arguments ∧ signature.result.slots = result := by
  have collected_iff := @collect_eq_ok_iff _ _ _ argument List.length argument_shrinks
  constructor
  · intro read
    unfold methodSlots at read
    dsimp only at read
    split at read
    · rename_i known
      cases read
      split at known
      · rename_i rest opened
        split at known
        · rename_i slots c left collected
          obtain ⟨types, rfl, rfl, more, same⟩ :=
            collects_arguments_iff.mp (collected_iff.mp collected)
          cases same
          obtain ⟨whole, returned, same⟩ := Option.map_eq_some_iff.mp known
          cases same
          obtain ⟨type, rfl, rfl⟩ := wholeType?_eq_some_iff.mp returned
          exact ⟨⟨types, type⟩, opened.symm, (toNat_sumSlots _).symm, rfl⟩
        · contradiction
      · contradiction
    · contradiction
  · rintro ⟨⟨types, type⟩, spelled, rfl, rfl⟩
    have collected : collect List.length argument
        (types.flatMap ValueType.chars ++ ')' :: type.chars) =
          .ok (types.map ValueType.slots, ')' :: type.chars) :=
      collected_iff.mpr (collects_arguments_iff.mpr ⟨types, rfl, rfl, type.chars, rfl⟩)
    have returned : wholeType? type.chars = some type.slots :=
      wholeType?_eq_some_iff.mpr ⟨type, rfl, rfl⟩
    unfold methodSlots
    rw [← spelled]
    simp only [Signature.chars, collected, returned, Option.map_some, toNat_sumSlots]
    rfl

/-- What is read from exactly the spelled texts, and blames a text otherwise, blames exactly the
texts that are not spelled. -/
private theorem eq_error_iff {α : Type} {read : Except FormatError α} {spelled : Prop}
    {reason : FormatError} (accepted : (∃ value, read = .ok value) ↔ spelled)
    (blamed : ∀ e, read = .error e → e = reason) (e : FormatError) :
    read = .error e ↔ ¬spelled ∧ e = reason := by
  constructor
  · intro failed
    refine ⟨fun known => ?_, blamed e failed⟩
    obtain ⟨value, done⟩ := accepted.mpr known
    rw [failed] at done
    contradiction
  · rintro ⟨unspelled, rfl⟩
    cases outcome : read with
    | ok value => exact absurd (accepted.mp ⟨value, outcome⟩) unspelled
    | error other => rw [blamed other outcome]

theorem fieldSlots_eq_error_iff {descriptor : String} (e : FormatError) :
    fieldSlots descriptor = .error e ↔
      (¬∃ type : ReturnType, type.chars = descriptor.toList) ∧
        e = .invalidDescriptor descriptor := by
  apply eq_error_iff
  · simp only [fieldSlots_eq_ok_iff]
    constructor
    · rintro ⟨_, type, spelled, -⟩
      exact ⟨type, spelled⟩
    · rintro ⟨type, spelled⟩
      exact ⟨_, type, spelled, rfl⟩
  · intro other failed
    unfold fieldSlots at failed
    split at failed
    · contradiction
    · exact (Except.error.inj failed).symm

theorem methodSlots_eq_error_iff {descriptor : String} (e : FormatError) :
    methodSlots descriptor = .error e ↔
      (¬∃ signature : Signature, signature.chars = descriptor.toList) ∧
        e = .invalidDescriptor descriptor := by
  apply eq_error_iff
  · simp only [Prod.exists, methodSlots_eq_ok_iff]
    constructor
    · rintro ⟨_, _, signature, spelled, -⟩
      exact ⟨signature, spelled⟩
    · rintro ⟨signature, spelled⟩
      exact ⟨_, _, signature, spelled, rfl, rfl⟩
  · intro other failed
    unfold methodSlots at failed
    dsimp only at failed
    split at failed
    · contradiction
    · exact (Except.error.inj failed).symm

/-- The slots of a field are read from exactly the texts that a type or the empty type spells, and
those of a method from exactly the texts that a signature spells, where the arguments are counted in
sixteen bits, so that up to 65535 slots are read as they are; any other text is blamed as a whole. A
text is spelled by no more than one type and by no more than one signature. -/
theorem slots_iff_spelled (descriptor : String) :
    (∀ slots, fieldSlots descriptor = .ok slots ↔
      ∃ type : ReturnType, type.chars = descriptor.toList ∧ type.slots = slots) ∧
    (∀ arguments result, methodSlots descriptor = .ok (arguments, result) ↔
      ∃ signature : Signature, signature.chars = descriptor.toList ∧
        signature.argumentSlots % 65536 = arguments ∧ signature.result.slots = result) ∧
    (∀ signature : Signature, signature.chars = descriptor.toList →
      signature.argumentSlots ≤ 65535 →
        methodSlots descriptor = .ok (signature.argumentSlots, signature.result.slots)) ∧
    (∀ e, fieldSlots descriptor = .error e ↔
      (¬∃ type : ReturnType, type.chars = descriptor.toList) ∧
        e = .invalidDescriptor descriptor) ∧
    (∀ e, methodSlots descriptor = .error e ↔
      (¬∃ signature : Signature, signature.chars = descriptor.toList) ∧
        e = .invalidDescriptor descriptor) ∧
    Function.Injective ReturnType.chars ∧ Function.Injective Signature.chars := by
  refine ⟨fun _ => fieldSlots_eq_ok_iff, fun _ _ => methodSlots_eq_ok_iff, ?_,
    fieldSlots_eq_error_iff, methodSlots_eq_error_iff, returnType_chars_injective,
    Signature.chars_injective⟩
  intro signature spelled few
  exact methodSlots_eq_ok_iff.mpr
    ⟨signature, spelled, Nat.mod_eq_of_lt (Nat.lt_succ_of_le few), rfl⟩

/-- The most slots that are read as they are: those of one array and 32767 values of type long. -/
theorem slots_iff_spelled_longs :
    let signature : Signature :=
      ⟨.array (.primitive .int) :: List.replicate 32767 (.primitive .long), .void⟩
    signature.argumentSlots ≤ 65535 ∧
      methodSlots (String.ofList signature.chars) = .ok (65535, 0) := by
  intro signature
  have longs : ∀ count, total ((List.replicate count (.primitive .long)).map ValueType.slots) =
      2 * count := by
    intro count
    induction count with
    | zero => rfl
    | succ count ih =>
      rw [List.replicate_succ, List.map_cons, total_cons, ih, Nat.mul_succ, Nat.add_comm]
      rfl
  have slots : signature.argumentSlots = 65535 := by
    rw [Signature.argumentSlots, List.map_cons, total_cons, longs]
    rfl
  have few : signature.argumentSlots ≤ 65535 := Nat.le_of_eq slots
  have read := (slots_iff_spelled (String.ofList signature.chars)).2.2.1 signature
    String.toList_ofList.symm few
  rw [slots] at read
  exact ⟨few, read⟩

example : methodSlots "(ILa.b);[[J)D" = .ok (3, 2) := by rfl

end ResourceClasses.ClassFile.Descriptor
