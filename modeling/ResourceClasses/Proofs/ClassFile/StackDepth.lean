import Mathlib.Order.Bounds.Basic
import Mathlib.Order.MinMax
import ResourceClasses.ClassFile.Code
import ResourceClasses.Proofs.ClassFile.Descriptor
import ResourceClasses.Proofs.ClassFile.PoolCalls

/-!
The operand stack of a method body: the depth before an instruction is what those before it put on
the stack less what they take off. A body is written only if every instruction finds its operands;
the stack and the locals that are then written for it are the largest that it uses, and otherwise
the first instruction without its operands is blamed.
-/

set_option autoImplicit false

namespace ResourceClasses.ClassFile

/-- Whether an error says that a pool has no room for a constant. -/
def FormatError.IsRefusal : FormatError → Prop
  | utf8TooLong _ | constantPoolOverflow => True
  | _ => False

namespace Pooled

variable {α β : Type}

/-- Whether a computation fails only because a pool refuses a constant. -/
def OnlyRefused (action : Pooled α) : Prop :=
  ∀ (pool : ConstantPool) (e : FormatError) (later : ConstantPool),
    action pool = .error e later → e.IsRefusal

namespace OnlyRefused

variable {action : Pooled α}

theorem pure (value : α) : OnlyRefused (Pure.pure value) := by
  intro pool e later failed
  change EStateM.Result.ok value pool = .error e later at failed
  contradiction

theorem bind {next : α → Pooled β} (first : OnlyRefused action)
    (second : ∀ value, OnlyRefused (next value)) : OnlyRefused (action >>= next) := by
  intro pool e later failed
  change EStateM.bind action next pool = .error e later at failed
  unfold EStateM.bind at failed
  split at failed
  · exact second _ _ _ _ failed
  · rename_i failure _ refused
    cases failed
    exact first _ _ _ refused

theorem intern (constant : Constant) : OnlyRefused (ConstantPool.intern constant) := by
  intro pool e later failed
  obtain ⟨-, refused, -⟩ := ConstantPool.refused_of_intern_error failed
  rw [ConstantPool.refusal?_eq] at refused
  split at refused
  · cases refused
    exact trivial
  · split at refused
    · cases refused
      exact trivial
    · contradiction

theorem classInfo (name : String) : OnlyRefused (ConstantPool.classInfo name) :=
  (intern _).bind fun _ => intern _

theorem nameAndType (name descriptor : String) :
    OnlyRefused (ConstantPool.nameAndType name descriptor) :=
  (intern _).bind fun _ => (intern _).bind fun _ => intern _

theorem fieldRef (ref : MemberRef) : OnlyRefused (ConstantPool.fieldRef ref) :=
  (classInfo _).bind fun _ => (nameAndType _ _).bind fun _ => intern _

theorem methodRef (ref : MemberRef) : OnlyRefused (ConstantPool.methodRef ref) :=
  (classInfo _).bind fun _ => (nameAndType _ _).bind fun _ => intern _

end OnlyRefused

end Pooled

namespace Insn

open Pooled

private theorem onlyRefused_pushBytes (value : Int32) : OnlyRefused (pushBytes value) := by
  simp only [pushBytes]
  split
  · exact .pure _
  · split
    · exact .pure _
    · split
      · exact .pure _
      · exact (OnlyRefused.intern _).bind fun _ => .pure _

theorem onlyRefused_encode (insn : Insn) : OnlyRefused insn.encode := by
  cases insn with
  | pushInt value => exact onlyRefused_pushBytes value
  | getStatic field => exact (OnlyRefused.fieldRef field).bind fun _ => .pure _
  | putStatic field => exact (OnlyRefused.fieldRef field).bind fun _ => .pure _
  | invokeStatic method => exact (OnlyRefused.methodRef method).bind fun _ => .pure _
  | invokeSpecial method => exact (OnlyRefused.methodRef method).bind fun _ => .pure _
  | aload | iload | istore | iadd | dup | newIntArray | iastore | returnVoid => exact .pure _

/-- The only thing that can be wrong with the effect of an instruction is its descriptor. -/
theorem stackEffect_eq_error {insn : Insn} {e : FormatError}
    (failed : insn.stackEffect = .error e) : ∃ descriptor, e = .invalidDescriptor descriptor := by
  have field : ∀ {descriptor : String} {effect : Nat → Except FormatError (Nat × Nat)},
      (∀ slots, ∃ value, effect slots = .ok value) →
        (Descriptor.fieldSlots descriptor >>= effect) = .error e →
          ∃ descriptor, e = .invalidDescriptor descriptor := by
    intro descriptor effect total failed
    rcases bind_eq_error_iff.mp failed with invalid | ⟨slots, _, never⟩
    · exact ⟨descriptor, ((Descriptor.fieldSlots_eq_error_iff e).mp invalid).2⟩
    · obtain ⟨value, done⟩ := total slots
      rw [done] at never
      contradiction
  cases insn with
  | getStatic ref => exact field (fun slots => ⟨(0, slots), rfl⟩) failed
  | putStatic ref => exact field (fun slots => ⟨(slots, 0), rfl⟩) failed
  | invokeStatic ref =>
    exact ⟨ref.descriptor, ((Descriptor.methodSlots_eq_error_iff e).mp failed).2⟩
  | invokeSpecial ref =>
    rcases bind_eq_error_iff.mp failed with invalid | ⟨slots, _, never⟩
    · exact ⟨ref.descriptor, ((Descriptor.methodSlots_eq_error_iff e).mp invalid).2⟩
    · contradiction
  | aload | iload | istore | pushInt | iadd | dup | newIntArray | iastore | returnVoid =>
    contradiction

/-- How many slots higher the stack is after an instruction. -/
def net (insn : Insn) : Int :=
  match insn.stackEffect with
  | .ok (pops, pushes) => pushes - pops
  | .error _ => 0

theorem net_of_effect {insn : Insn} {pops pushes : Nat}
    (effect : insn.stackEffect = .ok (pops, pushes)) : insn.net = pushes - pops := by
  rw [net, effect]

/-- Whether an instruction has a valid descriptor and takes off no more slots than there are. -/
def CanRun (insn : Insn) (depth : Int) : Prop :=
  ∃ pops pushes : Nat, insn.stackEffect = .ok (pops, pushes) ∧ pops ≤ depth

/-- Whether an instruction has a valid descriptor, but takes off more slots than there are. -/
def Underflows (insn : Insn) (depth : Int) : Prop :=
  ∃ pops pushes : Nat, insn.stackEffect = .ok (pops, pushes) ∧ depth < pops

end Insn

namespace Code

/-- The slots on the stack before the instruction at a position, when it is empty at the start. -/
def depthBefore (insns : List Insn) (index : Nat) : Int :=
  (insns.take index).foldl (fun depth insn => depth + insn.net) 0

@[simp]
theorem depthBefore_zero (insns : List Insn) : depthBefore insns 0 = 0 := rfl

private theorem foldl_net (insns : List Insn) (start : Int) :
    insns.foldl (fun depth insn => depth + insn.net) start =
      start + insns.foldl (fun depth insn => depth + insn.net) 0 := by
  induction insns generalizing start with
  | nil => simp
  | cons insn rest ih =>
    rw [List.foldl_cons, List.foldl_cons, ih, ih (0 + insn.net)]
    omega

theorem depthBefore_cons (insn : Insn) (rest : List Insn) (index : Nat) :
    depthBefore (insn :: rest) (index + 1) = insn.net + depthBefore rest index := by
  rw [depthBefore, List.take_succ_cons, List.foldl_cons, foldl_net, Int.zero_add]
  rfl

/-- The instructions from a position on do not matter for the depth there. -/
theorem depthBefore_take {index bound : Nat} (inside : index ≤ bound) (insns : List Insn) :
    depthBefore (insns.take bound) index = depthBefore insns index := by
  rw [depthBefore, List.take_take, Nat.min_eq_left inside]
  rfl

/-- Whether instructions are written one after another, each to the pool that those before it
leave. -/
inductive EachWritten : ConstantPool → List Insn → ConstantPool → Prop
  | nil (pool : ConstantPool) : EachWritten pool [] pool
  | cons {insn : Insn} {rest : List Insn} {bytes : List UInt8} {pool middle final : ConstantPool}
      (written : insn.encode pool = .ok bytes middle) (later : EachWritten middle rest final) :
      EachWritten pool (insn :: rest) final

/-- The progress and the pool that instructions lead to when each has its operands and is
written. -/
inductive Advances : Progress → ConstantPool → List Insn → Progress → ConstantPool → Prop
  | nil (progress : Progress) (pool : ConstantPool) : Advances progress pool [] progress pool
  | cons {progress last : Progress} {insn : Insn} {rest : List Insn} {pops pushes : Nat}
      {bytes : List UInt8} {pool middle final : ConstantPool}
      (effect : insn.stackEffect = .ok (pops, pushes)) (enough : pops ≤ progress.depth)
      (written : insn.encode pool = .ok bytes middle)
      (later : Advances (progress.add insn pops pushes bytes) middle rest last final) :
      Advances progress pool (insn :: rest) last final

section

variable {method : String} {progress last : Progress} {insn : Insn} {insns rest : List Insn}
  {pops pushes : Nat} {pool final : ConstantPool}

/-- An instruction whose descriptor is valid is checked for its operands and then written. -/
private theorem encodeFrom_cons (effect : insn.stackEffect = .ok (pops, pushes)) :
    encodeFrom method progress (insn :: rest) pool =
      if progress.depth < pops then .error (.stackUnderflow method progress.index) pool
      else
        match insn.encode pool with
        | .ok bytes middle =>
          encodeFrom method (progress.add insn pops pushes bytes) rest middle
        | .error e later => .error e later := by
  rw [encodeFrom, effect]
  by_cases missing : progress.depth < pops
  · rw [if_pos missing]
    change (if progress.depth < pops then _ else _ : Pooled Progress) pool = _
    rw [if_pos missing]
    rfl
  · rw [if_neg missing]
    change (if progress.depth < pops then _ else _ : Pooled Progress) pool = _
    rw [if_neg missing]
    change EStateM.bind insn.encode _ pool = _
    unfold EStateM.bind
    split
    · rename_i written
      rw [written]
    · rename_i failed
      rw [failed]

private theorem encodeFrom_invalid {e : FormatError} (invalid : insn.stackEffect = .error e) :
    encodeFrom method progress (insn :: rest) pool = .error e pool := by
  rw [encodeFrom, invalid]
  rfl

theorem advances_of_encodeFrom (done : encodeFrom method progress insns pool = .ok last final) :
    Advances progress pool insns last final := by
  induction insns generalizing progress pool with
  | nil =>
    change EStateM.Result.ok progress pool = .ok last final at done
    cases done
    exact .nil _ _
  | cons insn rest ih =>
    cases effect : insn.stackEffect with
    | error e =>
      rw [encodeFrom_invalid effect] at done
      contradiction
    | ok slots =>
      obtain ⟨pops, pushes⟩ := slots
      rw [encodeFrom_cons effect] at done
      split at done
      · contradiction
      · rename_i enough
        split at done
        · rename_i written
          exact .cons effect (Nat.le_of_not_lt enough) written (ih done)
        · contradiction

/-- Writing goes on from where some instructions lead to. -/
theorem Advances.encodeFrom_append (advances : Advances progress pool insns last final)
    (method : String) (others : List Insn) :
    encodeFrom method progress (insns ++ others) pool = encodeFrom method last others final := by
  induction advances with
  | nil => rfl
  | cons effect enough written _ ih =>
    rw [List.cons_append, encodeFrom_cons effect, if_neg (Nat.not_lt_of_le enough), written]
    exact ih

/-- An instruction is blamed for its operands only behind instructions that are written. -/
theorem exists_underflow {name : String} {index : Nat}
    (failed : encodeFrom method progress insns pool =
      .error (.stackUnderflow name index) final) :
    name = method ∧ ∃ before insn after last, insns = before ++ insn :: after ∧
      Advances progress pool before last final ∧ last.index = index ∧
        insn.Underflows last.depth := by
  induction insns generalizing progress pool with
  | nil =>
    change EStateM.Result.ok progress pool = .error _ final at failed
    contradiction
  | cons insn rest ih =>
    cases effect : insn.stackEffect with
    | error e =>
      rw [encodeFrom_invalid effect] at failed
      cases failed
      obtain ⟨descriptor, invalid⟩ := Insn.stackEffect_eq_error effect
      contradiction
    | ok slots =>
      obtain ⟨pops, pushes⟩ := slots
      rw [encodeFrom_cons effect] at failed
      split at failed
      · rename_i missing
        cases failed
        refine ⟨rfl, [], insn, rest, progress, rfl, .nil _ _, rfl, pops, pushes, effect, ?_⟩
        omega
      · rename_i enough
        split at failed
        · rename_i written
          obtain ⟨same, before, other, after, last, rfl, advances, found, underflows⟩ := ih failed
          exact ⟨same, insn :: before, other, after, last, rfl,
            .cons effect (Nat.le_of_not_lt enough) written advances, found, underflows⟩
        · rename_i refused
          cases failed
          exact (insn.onlyRefused_encode _ _ _ refused).elim

/-- An instruction that has its operands changes the depth by what it puts on less what it takes
off. -/
private theorem depth_add (effect : insn.stackEffect = .ok (pops, pushes))
    (enough : pops ≤ progress.depth) (bytes : List UInt8) :
    ((progress.add insn pops pushes bytes).depth : Int) = progress.depth + insn.net := by
  have depth : (progress.add insn pops pushes bytes).depth = progress.depth - pops + pushes := rfl
  rw [depth, Insn.net_of_effect effect]
  omega

theorem Advances.index_eq (advances : Advances progress pool insns last final) :
    last.index = progress.index + insns.length := by
  induction advances with
  | nil => rfl
  | cons _ _ _ _ ih =>
    rw [ih, List.length_cons]
    simp only [Progress.add]
    omega

theorem Advances.depth_eq (advances : Advances progress pool insns last final) :
    (last.depth : Int) = progress.depth + depthBefore insns insns.length := by
  induction advances with
  | nil => simp
  | cons effect enough _ _ ih =>
    rw [ih, depth_add effect enough, List.length_cons, depthBefore_cons]
    omega

theorem Advances.eachWritten (advances : Advances progress pool insns last final) :
    EachWritten pool insns final := by
  induction advances with
  | nil => exact .nil _
  | cons _ _ written _ ih => exact .cons written ih

theorem Advances.canRun (advances : Advances progress pool insns last final) {index : Nat}
    (found : insns[index]? = some insn) :
    insn.CanRun (progress.depth + depthBefore insns index) := by
  induction advances generalizing index with
  | nil => simp at found
  | @cons progress last first rest pops pushes bytes pool middle final effect enough _ _ ih =>
    cases index with
    | zero =>
      cases found
      refine ⟨pops, pushes, effect, ?_⟩
      rw [depthBefore_zero]
      omega
    | succ index =>
      have later := ih (by simpa using found)
      rw [depth_add effect enough, Int.add_assoc, ← depthBefore_cons] at later
      exact later

/-- Instructions that each have their operands and are written lead somewhere. -/
theorem exists_advances
    (runs : ∀ (index : Nat) (insn : Insn), insns[index]? = some insn →
      insn.CanRun (progress.depth + depthBefore insns index))
    (written : EachWritten pool insns final) : ∃ last, Advances progress pool insns last final := by
  induction written generalizing progress with
  | nil => exact ⟨progress, .nil _ _⟩
  | @cons first rest bytes pool middle final written _ ih =>
    obtain ⟨pops, pushes, effect, enough⟩ := runs 0 first rfl
    rw [depthBefore_zero] at enough
    have fits : pops ≤ progress.depth := by omega
    have runs_rest : ∀ (index : Nat) (insn : Insn), rest[index]? = some insn →
        insn.CanRun ((progress.add first pops pushes bytes).depth + depthBefore rest index) := by
      intro index insn found
      have later := runs (index + 1) insn (by simpa using found)
      rwa [depthBefore_cons, ← Int.add_assoc, ← depth_add effect fits bytes] at later
    obtain ⟨last, advances⟩ := ih runs_rest
    exact ⟨last, .cons effect fits written advances⟩

/-- The depths after each of the instructions. -/
def reached (start : Int) (insns : List Insn) : Set Int :=
  {depth | ∃ index < insns.length, depth = start + depthBefore insns (index + 1)}

theorem reached_cons (start : Int) (insn : Insn) (rest : List Insn) :
    reached start (insn :: rest) =
      insert (start + insn.net) (reached (start + insn.net) rest) := by
  ext depth
  simp only [reached, Set.mem_ofPred_eq, Set.mem_insert_iff, List.length_cons, depthBefore_cons]
  constructor
  · rintro ⟨index, inside, rfl⟩
    cases index with
    | zero => exact .inl (by simp)
    | succ index => exact .inr ⟨index, by omega, by omega⟩
  · rintro (rfl | ⟨index, inside, rfl⟩)
    · exact ⟨0, by omega, by simp⟩
    · exact ⟨index + 1, by omega, by omega⟩

/-- The larger one of a number and another stands for both among numbers. -/
private theorem isGreatest_insert_max {α : Type} [LinearOrder α] {start value top : α}
    {values : Set α} (greatest : IsGreatest (insert (max start value) values) top) :
    IsGreatest (insert start (insert value values)) top := by
  obtain ⟨attained, above⟩ := greatest
  have start_le : start ≤ top :=
    le_trans (le_max_left start value) (above (Set.mem_insert _ _))
  have value_le : value ≤ top :=
    le_trans (le_max_right start value) (above (Set.mem_insert _ _))
  constructor
  · rcases attained with rfl | inside
    · rcases max_choice start value with same | same
      · exact .inl same
      · exact .inr (.inl same)
    · exact .inr (.inr inside)
  · rintro n (rfl | rfl | inside)
    · exact start_le
    · exact value_le
    · exact above (Set.mem_insert_of_mem _ inside)

/-- A number that does not exceed some of the others need not be looked at. -/
private theorem isGreatest_of_insert {α : Type} [LinearOrder α] {start value top : α}
    {values : Set α} (greatest : IsGreatest (insert start values) top) (member : value ∈ values)
    (below : start ≤ value) : IsGreatest values top := by
  obtain ⟨attained, above⟩ := greatest
  refine ⟨?_, fun n inside => above (Set.mem_insert_of_mem _ inside)⟩
  rcases attained with rfl | inside
  · have same : value = top := le_antisymm (above (Set.mem_insert_of_mem _ member)) below
    exact same ▸ member
  · exact inside

theorem Advances.isGreatest_maxStack (advances : Advances progress pool insns last final) :
    IsGreatest (insert (progress.maxStack : Int) (reached progress.depth insns))
      (last.maxStack : Int) := by
  induction advances with
  | nil progress pool =>
    have nothing : reached progress.depth [] = ∅ := by simp [reached]
    rw [nothing]
    simp
  | @cons progress last insn rest pops pushes bytes pool middle final effect enough _ _ ih =>
    have larger : ((progress.add insn pops pushes bytes).maxStack : Int) =
        max (progress.maxStack : Int) (progress.add insn pops pushes bytes).depth := by
      simp only [Progress.add]
      omega
    rw [reached_cons, ← depth_add effect enough bytes]
    apply isGreatest_insert_max
    rwa [larger] at ih

/-- One more than each of the local slots that instructions use. -/
def usedLocals (insns : List Insn) : Set Nat :=
  {count | ∃ insn ∈ insns, ∃ slot ∈ insn.local?, count = slot.toNat + 1}

theorem usedLocals_cons (insn : Insn) (rest : List Insn) :
    usedLocals (insn :: rest) =
      match insn.local? with
      | some slot => insert (slot.toNat + 1) (usedLocals rest)
      | none => usedLocals rest := by
  ext count
  cases used : insn.local? <;> simp [usedLocals, used]

theorem Advances.isGreatest_maxLocals (advances : Advances progress pool insns last final) :
    IsGreatest (insert progress.maxLocals (usedLocals insns)) last.maxLocals := by
  induction advances with
  | nil progress pool =>
    have nothing : usedLocals [] = ∅ := by simp [usedLocals]
    rw [nothing]
    simp
  | @cons progress last insn rest pops pushes bytes pool middle final effect _ _ _ ih =>
    rw [usedLocals_cons]
    simp only [Progress.add] at ih
    cases used : insn.local? with
    | none => simpa only [used] using ih
    | some slot =>
      simp only [used] at ih
      exact isGreatest_insert_max ih

/-- What the numbers of a written body say of its instructions: each has its operands, and the
numbers are the largest depth after an instruction and the local slots that are needed. -/
structure Encoded.Accounts (argumentSlots : Nat) (insns : List Insn) (encoded : Encoded) :
    Prop where
  runs : ∀ (index : Nat) (insn : Insn), insns[index]? = some insn →
    insn.CanRun (depthBefore insns index)
  maxStack_empty : insns = [] → encoded.maxStack = 0
  maxStack_greatest : insns ≠ [] →
    IsGreatest {depth | ∃ index < insns.length, depth = depthBefore insns (index + 1)}
      (encoded.maxStack : Int)
  maxLocals_greatest :
    IsGreatest
      (insert argumentSlots {count | ∃ insn ∈ insns, ∃ slot ∈ insn.local?, count = slot.toNat + 1})
      encoded.maxLocals

/-- The depth after the last instruction is no less than zero, the depth at the start. -/
private theorem Advances.exists_reached (advances : Advances progress pool insns last final)
    (some_insn : insns ≠ []) : (last.depth : Int) ∈ reached progress.depth insns := by
  have positive := List.length_pos_iff.mpr some_insn
  refine ⟨insns.length - 1, by omega, ?_⟩
  rw [Nat.sub_add_cancel positive, advances.depth_eq]

end

section

variable {method : String} {argumentSlots : Nat} {insns : List Insn} {pool final : ConstantPool}

/-- A written body is the bytes and the numbers of where its instructions lead to. -/
theorem exists_progress {encoded : Encoded}
    (done : encode method argumentSlots insns pool = .ok encoded final) :
    ∃ last, Advances (.start argumentSlots) pool insns last final ∧
      encoded = ⟨last.written.reverse.flatten, last.maxStack, last.maxLocals⟩ := by
  obtain ⟨last, middle, written, rest⟩ := Pooled.exists_of_bind_ok done
  change (if _ then _ else _ : Pooled Encoded) middle = _ at rest
  split at rest
  · contradiction
  · cases rest
    exact ⟨last, advances_of_encodeFrom written, rfl⟩

private theorem encode_eq_stackUnderflow_iff {name : String} {index : Nat} :
    encode method argumentSlots insns pool = .error (.stackUnderflow name index) final ↔
      encodeFrom method (.start argumentSlots) insns pool =
        .error (.stackUnderflow name index) final := by
  change EStateM.bind (encodeFrom method (.start argumentSlots) insns) _ pool = _ ↔ _
  unfold EStateM.bind
  split
  · rename_i last middle written
    rw [written]
    change (if _ then _ else _ : Pooled Encoded) middle = _ ↔ _
    have written_ne : (EStateM.Result.ok last middle : EStateM.Result FormatError _ _) ≠
        .error (.stackUnderflow name index) final := nofun
    split
    · exact ⟨nofun, fun failed => absurd failed written_ne⟩
    · exact ⟨nofun, fun failed => absurd failed written_ne⟩
  · rename_i failed
    rw [failed]
    simp

end

theorem Advances.accounts {argumentSlots : Nat} {insns : List Insn} {pool final : ConstantPool}
    {last : Progress} {encoded : Encoded}
    (advances : Advances (.start argumentSlots) pool insns last final)
    (maxStack : encoded.maxStack = last.maxStack) (maxLocals : encoded.maxLocals = last.maxLocals) :
    encoded.Accounts argumentSlots insns where
  runs := by
    intro index insn found
    have run := advances.canRun found
    simpa [Progress.start] using run
  maxStack_empty := by
    rintro rfl
    cases advances
    exact maxStack
  maxStack_greatest := by
    intro some_insn
    have greatest := isGreatest_of_insert advances.isGreatest_maxStack
      (advances.exists_reached some_insn) (Int.natCast_nonneg _)
    rw [maxStack]
    simpa [reached, Progress.start] using greatest
  maxLocals_greatest := by
    rw [maxLocals]
    exact advances.isGreatest_maxLocals

/-- Whether the instruction at a position is the first one without its operands, and all before it
have valid descriptors and are written, which leaves the given pool. -/
structure FirstUnderflow (pool : ConstantPool) (insns : List Insn) (index : Nat)
    (final : ConstantPool) : Prop where
  runs : ∀ (earlier : Nat) (insn : Insn), earlier < index → insns[earlier]? = some insn →
    insn.CanRun (depthBefore insns earlier)
  written : EachWritten pool (insns.take index) final
  underflows : ∃ insn, insns[index]? = some insn ∧ insn.Underflows (depthBefore insns index)

section

variable {argumentSlots index : Nat} {insns : List Insn} {pool final : ConstantPool}

private theorem Advances.firstUnderflow {before after : List Insn} {insn : Insn} {last : Progress}
    (advances : Advances (.start argumentSlots) pool before last final)
    (underflows : insn.Underflows last.depth) :
    FirstUnderflow pool (before ++ insn :: after) last.index final := by
  have place : last.index = before.length := by simpa [Progress.start] using advances.index_eq
  have front : (before ++ insn :: after).take last.index = before := by simp [place]
  have depth : ∀ index ≤ last.index,
      depthBefore (before ++ insn :: after) index = depthBefore before index := by
    intro index inside
    rw [← depthBefore_take inside, front]
  refine ⟨?_, ?_, insn, by simp [place], ?_⟩
  · intro earlier other inside found
    have found_before : before[earlier]? = some other := by
      rw [← found, List.getElem?_append_left (by omega)]
    rw [depth earlier (Nat.le_of_lt inside)]
    simpa [Progress.start] using advances.canRun found_before
  · rw [front]
    exact advances.eachWritten
  · rw [depth _ (Nat.le_refl _), place]
    simpa [advances.depth_eq, Progress.start] using underflows

private theorem FirstUnderflow.encodeFrom_eq (first : FirstUnderflow pool insns index final)
    (method : String) :
    encodeFrom method (.start argumentSlots) insns pool =
      .error (.stackUnderflow method index) final := by
  obtain ⟨insn, found, pops, pushes, effect, missing⟩ := first.underflows
  have inside : index < insns.length := (List.getElem?_eq_some_iff.mp found).1
  have front_length : (insns.take index).length = index := by
    rw [List.length_take, Nat.min_eq_left (Nat.le_of_lt inside)]
  have runs_front : ∀ (earlier : Nat) (insn : Insn), (insns.take index)[earlier]? = some insn →
      insn.CanRun ((Progress.start argumentSlots).depth +
        depthBefore (insns.take index) earlier) := by
    intro earlier other found_front
    have before : earlier < index := by
      rw [← front_length]
      exact (List.getElem?_eq_some_iff.mp found_front).1
    rw [List.getElem?_take_of_lt before] at found_front
    rw [depthBefore_take (Nat.le_of_lt before)]
    simpa [Progress.start] using first.runs earlier other before found_front
  obtain ⟨last, advances⟩ := exists_advances runs_front first.written
  have place : last.index = index := by
    simpa [Progress.start, front_length] using advances.index_eq
  have depth : (last.depth : Int) = depthBefore insns index := by
    have after_front := advances.depth_eq
    rw [front_length, depthBefore_take (Nat.le_refl index)] at after_front
    simpa [Progress.start] using after_front
  have shallow : last.depth < pops := by omega
  have split : insns.take index ++ insn :: insns.drop (index + 1) = insns := by
    rw [← (List.getElem?_eq_some_iff.mp found).2, List.getElem_cons_drop, List.take_append_drop]
  rw [← split, advances.encodeFrom_append, encodeFrom_cons effect, if_pos shallow, place]

end

/-- The numbers of a written body are exactly what its instructions need, and an instruction is
blamed for its operands exactly if it is the first that lacks them behind instructions that are all
written. -/
theorem encode_accounts (method : String) (argumentSlots : Nat) (insns : List Insn)
    (pool : ConstantPool) :
    (∀ encoded final, encode method argumentSlots insns pool = .ok encoded final →
      encoded.Accounts argumentSlots insns) ∧
    ∀ name index final,
      encode method argumentSlots insns pool = .error (.stackUnderflow name index) final ↔
        name = method ∧ FirstUnderflow pool insns index final := by
  constructor
  · intro encoded final done
    obtain ⟨last, advances, rfl⟩ := exists_progress done
    exact advances.accounts rfl rfl
  · intro name index final
    rw [encode_eq_stackUnderflow_iff]
    constructor
    · intro failed
      obtain ⟨rfl, before, insn, after, last, rfl, advances, rfl, underflows⟩ :=
        exists_underflow failed
      exact ⟨rfl, advances.firstUnderflow underflows⟩
    · rintro ⟨rfl, first⟩
      exact first.encodeFrom_eq name

/-- A sum needs two slots of the stack, and fails with one operand. -/
theorem encode_accounts_sum :
    (⟨[0x1a, 0x04, 0x60, 0x3e], 2, 4⟩ : Encoded).Accounts 1
        [.iload 0, .pushInt 1, .iadd, .istore 3] ∧
      FirstUnderflow .empty [.iload 0, .iadd] 1 .empty := by
  refine ⟨(encode_accounts "sum" 1 _ .empty).1 _ .empty rfl, ?_⟩
  exact (((encode_accounts "sum" 1 _ .empty).2 "sum" 1 .empty).mp rfl).2

end Code

end ResourceClasses.ClassFile
