import ResourceClasses.Proofs.ClassFile.Asks
import ResourceClasses.Proofs.ClassFile.Code

/-!
Writing a class: it succeeds unless a text of the class is too long or the class has too many
different entries, when its method bodies are short and never take more off the stack than is on it.
-/

set_option autoImplicit false

namespace ResourceClasses.ClassFile

open Pooled

variable {α : Type} {entries : Entry → Prop}

theorem Insn.length_localBytes (short long : UInt8) (slot : UInt16) :
    (localBytes short long slot).length = localSize slot := by
  unfold localBytes localSize
  split
  · rfl
  · split <;> rfl

theorem Insn.pushSize_le (value : Int32) : Insn.pushSize value ≤ 3 := by
  unfold Insn.pushSize
  simp only
  split
  · omega
  · split <;> omega

private theorem asks_pushBytes {value : Int32}
    (wanted : ∀ entry ∈ (Insn.pushInt value).entries, entries entry) :
    Asks (Insn.pushBytes value) entries fun bytes => bytes.length ≤ Insn.pushSize value := by
  simp only [Insn.pushBytes, Insn.pushSize]
  split
  · exact .pure (Nat.le_refl _)
  · split
    · exact .pure (Nat.le_refl _)
    · split
      · exact .pure (Nat.le_refl _)
      · rename_i wide
        have asked : entries (.integer value) := by
          apply wanted
          rw [Insn.entries, if_neg wide]
          exact List.mem_singleton_self _
        refine (ConstantPool.asks_integer asked).bind ?_
        intro index _
        refine .pure ?_
        split
        · exact Nat.le_succ 2
        · exact Nat.le_refl 3

/-- An instruction is written to at most as many bytes as it claims. -/
theorem asks_insn {insn : Insn} (wanted : ∀ entry ∈ insn.entries, entries entry) :
    Asks insn.encode entries fun bytes => bytes.length ≤ insn.maxSize := by
  cases insn with
  | aload slot => exact .pure (Nat.le_of_eq (Insn.length_localBytes _ _ slot))
  | iload slot => exact .pure (Nat.le_of_eq (Insn.length_localBytes _ _ slot))
  | istore slot => exact .pure (Nat.le_of_eq (Insn.length_localBytes _ _ slot))
  | pushInt value => exact asks_pushBytes wanted
  | iadd => exact .pure (Nat.le_refl 1)
  | dup => exact .pure (Nat.le_refl 1)
  | newIntArray => exact .pure (Nat.le_refl 2)
  | iastore => exact .pure (Nat.le_refl 1)
  | getStatic field =>
    exact (ConstantPool.asks_fieldRef wanted).bind fun _ _ => .pure (Nat.le_refl 3)
  | putStatic field =>
    exact (ConstantPool.asks_fieldRef wanted).bind fun _ _ => .pure (Nat.le_refl 3)
  | invokeStatic method =>
    exact (ConstantPool.asks_methodRef wanted).bind fun _ _ => .pure (Nat.le_refl 3)
  | invokeSpecial method =>
    exact (ConstantPool.asks_methodRef wanted).bind fun _ _ => .pure (Nat.le_refl 3)
  | returnVoid => exact .pure (Nat.le_refl 1)

namespace Code

/-- The operand depth after some instructions, if they never take more off than there is. -/
def depthAfter? : Nat → List Insn → Option Nat
  | depth, [] => some depth
  | depth, insn :: rest =>
    match insn.stackEffect with
    | .ok (pops, pushes) =>
      if depth < pops then none else depthAfter? (depth - pops + pushes) rest
    | .error _ => none

/-- An instruction leaves what lies below its operands. -/
theorem depthAfter?_cons {insn : Insn} {pops pushes : Nat}
    (effect : insn.stackEffect = .ok (pops, pushes)) (below : Nat) (rest : List Insn) :
    depthAfter? (below + pops) (insn :: rest) = depthAfter? (below + pushes) rest := by
  have enough : ¬below + pops < pops := by omega
  rw [depthAfter?, effect]
  simp only [if_neg enough, Nat.add_sub_cancel]

theorem maxSize_cons (insn : Insn) (rest : List Insn) :
    maxSize (insn :: rest) = insn.maxSize + maxSize rest :=
  total_cons _ _

theorem maxSize_append (first second : List Insn) :
    maxSize (first ++ second) = maxSize first + maxSize second := by
  rw [maxSize, List.map_append, total_append]
  rfl

theorem asks_encodeFrom {method : String} {insns : List Insn} (progress : Progress)
    (wanted : ∀ insn ∈ insns, ∀ entry ∈ insn.entries, entries entry)
    (runs : (depthAfter? progress.depth insns).isSome) :
    Asks (encodeFrom method progress insns) entries fun last =>
      last.written.flatten.length ≤ progress.written.flatten.length + maxSize insns := by
  induction insns generalizing progress with
  | nil => exact .pure (Nat.le_refl _)
  | cons insn rest ih =>
    have wanted_rest : ∀ other ∈ rest, ∀ entry ∈ other.entries, entries entry := by
      intro other member
      exact wanted other (List.mem_cons_of_mem _ member)
    rw [depthAfter?] at runs
    split at runs
    · rename_i pops pushes effect
      split at runs
      · contradiction
      · rename_i enough
        unfold encodeFrom
        refine (Asks.ofExcept effect).bind ?_
        rintro _ rfl
        simp only [if_neg enough]
        refine (asks_insn (wanted insn List.mem_cons_self)).bind ?_
        intro bytes size
        refine (ih (progress.add insn pops pushes bytes) wanted_rest runs).mono ?_
        intro last below
        have written : (progress.add insn pops pushes bytes).written = bytes :: progress.written :=
          rfl
        rw [written, List.flatten_cons, List.length_append] at below
        rw [maxSize_cons]
        omega
    · contradiction

theorem length_flatten_reverse (written : List (List UInt8)) :
    written.reverse.flatten.length = written.flatten.length := by
  rw [List.length_flatten, List.map_reverse, List.sum_reverse, ← List.length_flatten]

/-- A body is written to at most as many bytes as its instructions claim. -/
theorem asks_encode {method : String} {argumentSlots : Nat} {insns : List Insn}
    (wanted : ∀ insn ∈ insns, ∀ entry ∈ insn.entries, entries entry)
    (runs : (depthAfter? 0 insns).isSome) (short : maxSize insns ≤ maxCodeSize) :
    Asks (encode method argumentSlots insns) entries fun encoded =>
      encoded.bytes.length ≤ maxSize insns := by
  refine (asks_encodeFrom (.start argumentSlots) wanted runs).bind ?_
  intro progress below
  have size : progress.written.reverse.flatten.length ≤ maxSize insns := by
    rw [length_flatten_reverse]
    simpa [Progress.start] using below
  simp only
  rw [if_neg (by omega)]
  exact .pure size

end Code

private theorem asks_mapM {write : α → Pooled (List UInt8)} {items : List α}
    (each : ∀ item ∈ items, Asks (write item) entries fun _ => True) :
    Asks (items.mapM write) entries fun _ => True := by
  induction items with
  | nil =>
    rw [List.mapM_nil]
    exact .pure trivial
  | cons item rest ih =>
    have each_rest : ∀ other ∈ rest, Asks (write other) entries fun _ => True := by
      intro other member
      exact each other (List.mem_cons_of_mem _ member)
    rw [List.mapM_cons]
    refine (each item List.mem_cons_self).bind ?_
    intro piece _
    refine (ih each_rest).bind ?_
    intro pieces _
    exact .pure trivial

theorem asks_concatenated {write : α → Pooled (List UInt8)} {items : List α}
    (each : ∀ item ∈ items, Asks (write item) entries fun _ => True) :
    Asks (concatenated write items) entries fun _ => True :=
  (asks_mapM each).bind fun _ _ => .pure trivial

theorem asks_element {element : String × ElementValue}
    (wanted : ∀ entry ∈ elementEntries element, entries entry) :
    Asks (elementBytes element) entries fun _ => True := by
  obtain ⟨name, value⟩ := element
  cases value with
  | string text =>
    refine (ConstantPool.asks_utf8 (wanted (.utf8 name) (by simp [elementEntries]))).bind ?_
    intro _ _
    refine (ConstantPool.asks_utf8 (wanted (.utf8 text) (by simp [elementEntries]))).bind ?_
    exact fun _ _ => .pure trivial
  | int number =>
    refine (ConstantPool.asks_utf8 (wanted (.utf8 name) (by simp [elementEntries]))).bind ?_
    intro _ _
    refine (ConstantPool.asks_integer (wanted (.integer number) (by simp [elementEntries]))).bind ?_
    exact fun _ _ => .pure trivial

theorem asks_annotation {note : Annotation} (wanted_type : entries (.utf8 note.descriptor))
    (wanted : ∀ entry ∈ note.elements.flatMap elementEntries, entries entry) :
    Asks note.encode entries fun _ => True := by
  refine (ConstantPool.asks_utf8 wanted_type).bind ?_
  intro _ _
  refine (asks_concatenated fun element member => asks_element
    (List.forall_mem_flatMap.mp wanted element member)).bind ?_
  exact fun _ _ => .pure trivial

theorem asks_annotationsBody {annotations : List Annotation}
    (wanted : ∀ entry ∈ annotations.flatMap fun note =>
      .utf8 note.descriptor :: note.elements.flatMap elementEntries, entries entry) :
    Asks (annotationsBody annotations) entries fun _ => True := by
  refine (asks_concatenated ?_).bind fun _ _ => .pure trivial
  intro note member
  have asked := List.forall_mem_flatMap.mp wanted note member
  exact asks_annotation (asked _ List.mem_cons_self) fun entry listed =>
    asked entry (List.mem_cons_of_mem _ listed)

/-- Whether the names of some attributes are among the entries. -/
def Named (entries : Entry → Prop) (contents : List (KnownAttribute × List UInt8)) : Prop :=
  ∀ content ∈ contents, entries (.utf8 content.1.name)

theorem Named.append {first second : List (KnownAttribute × List UInt8)}
    (named : Named entries first) (other : Named entries second) :
    Named entries (first ++ second) := by
  intro content member
  rcases List.mem_append.mp member with early | late
  · exact named content early
  · exact other content late

theorem named_nil : Named entries [] := by
  intro content member
  contradiction

theorem named_singleton {known : KnownAttribute} {body : List UInt8}
    (wanted : entries (.utf8 known.name)) : Named entries [(known, body)] := by
  intro content member
  rw [List.mem_singleton.mp member]
  exact wanted

theorem asks_attributes {contents : List (KnownAttribute × List UInt8)}
    (named : Named entries contents) :
    Asks (attributesBytes contents) entries fun _ => True := by
  have each : ∀ content ∈ contents, Asks (attributeBytes content) entries fun _ => True := by
    intro content member
    refine (ConstantPool.asks_utf8 (named content member)).bind ?_
    exact fun _ _ => .pure trivial
  exact (asks_concatenated each).bind fun _ _ => .pure trivial

theorem asks_annotationAttributes {annotations : List Annotation}
    (wanted : ∀ entry ∈ annotationEntries annotations, entries entry) :
    Asks (annotationAttributes annotations) entries (Named entries) := by
  unfold annotationAttributes
  unfold annotationEntries at wanted
  split
  · exact .pure named_nil
  · rename_i some_annotation
    rw [if_neg some_annotation] at wanted
    refine (asks_annotationsBody fun entry listed =>
      wanted entry (List.mem_cons_of_mem _ listed)).bind ?_
    exact fun _ _ => .pure (named_singleton (wanted _ List.mem_cons_self))

theorem asks_constantAttributes {constant : Option ConstantValue}
    (wanted : ∀ entry ∈ constantEntries constant, entries entry) :
    Asks (constantAttributes constant) entries (Named entries) := by
  cases constant with
  | none => exact .pure named_nil
  | some value =>
    cases value with
    | int number =>
      have listed : .integer number ∈ constantEntries (some (.int number)) := by
        simp [constantEntries]
      refine (ConstantPool.asks_integer (wanted _ listed)).bind ?_
      exact fun _ _ => .pure (named_singleton (wanted _ List.mem_cons_self))
    | string text =>
      refine (ConstantPool.asks_string fun entry listed =>
        wanted entry (List.mem_cons_of_mem _ listed)).bind ?_
      exact fun _ _ => .pure (named_singleton (wanted _ List.mem_cons_self))

theorem asks_field {field : FieldDecl} (wanted : ∀ entry ∈ field.entries, entries entry) :
    Asks field.encode entries fun _ => True := by
  simp only [FieldDecl.entries, List.mem_append, List.mem_cons, List.not_mem_nil,
    or_false] at wanted
  refine (ConstantPool.asks_utf8 (wanted _ (.inl (.inl (.inl rfl))))).bind ?_
  intro _ _
  refine (ConstantPool.asks_utf8 (wanted _ (.inl (.inl (.inr rfl))))).bind ?_
  intro _ _
  refine (asks_constantAttributes fun entry listed => wanted entry (.inl (.inr listed))).bind ?_
  intro constants constants_named
  refine (asks_annotationAttributes fun entry listed => wanted entry (.inr listed)).bind ?_
  intro annotations annotations_named
  refine (asks_attributes (constants_named.append annotations_named)).bind ?_
  exact fun _ _ => .pure trivial

/-- Whether the body of a method can be written into a pool with enough room: its descriptors are
understood, it never takes more off the stack than is on it, and it is short. -/
structure MethodDecl.Writable (method : MethodDecl) : Prop where
  arguments : ∃ slots, method.argumentSlots = .ok slots
  runs : (Code.depthAfter? 0 method.code).isSome
  short : Code.maxSize method.code ≤ maxCodeSize

theorem asks_method {method : MethodDecl} (writable : method.Writable)
    (wanted : ∀ entry ∈ method.entries, entries entry) :
    Asks method.encode entries fun _ => True := by
  simp only [MethodDecl.entries, List.mem_append, List.mem_cons, List.not_mem_nil,
    or_false] at wanted
  obtain ⟨slots, known⟩ := writable.arguments
  refine (ConstantPool.asks_utf8 (wanted _ (.inl (.inl rfl)))).bind ?_
  intro _ _
  refine (ConstantPool.asks_utf8 (wanted _ (.inl (.inr (.inl rfl))))).bind ?_
  intro _ _
  refine (Asks.ofExcept known).bind ?_
  intro _ _
  have wanted_code : ∀ insn ∈ method.code, ∀ entry ∈ insn.entries, entries entry :=
    List.forall_mem_flatMap.mp fun entry listed => wanted entry (.inr listed)
  refine (Code.asks_encode wanted_code writable.runs writable.short).bind ?_
  intro encoded _
  have named : Named entries [(.code, encoded.content)] :=
    named_singleton (wanted _ (.inl (.inr (.inr rfl))))
  exact (asks_attributes named).bind fun _ _ => .pure trivial

private theorem asks_optionalIndex {intern : String → Pooled UInt16} {name : Option String}
    (each : ∀ text ∈ name, Asks (intern text) entries fun _ => True) :
    Asks (optionalIndex intern name) entries fun _ => True := by
  cases name with
  | none => exact .pure trivial
  | some text => exact each text rfl

theorem asks_innerClass {entry : InnerClass} (wanted : ∀ part ∈ entry.entries, entries part) :
    Asks entry.encode entries fun _ => True := by
  simp only [InnerClass.entries, List.mem_append] at wanted
  refine (ConstantPool.asks_classInfo fun part listed =>
    wanted part (.inl (.inl listed))).bind ?_
  intro _ _
  have outer : Asks (optionalIndex ConstantPool.classInfo entry.outer) entries fun _ => True := by
    refine asks_optionalIndex fun text present => ConstantPool.asks_classInfo fun part listed => ?_
    apply wanted part
    rw [Option.mem_def] at present
    simp [present, listed]
  refine outer.bind ?_
  intro _ _
  have simple : Asks (optionalIndex ConstantPool.utf8 entry.simpleName) entries fun _ => True := by
    refine asks_optionalIndex fun text present => ConstantPool.asks_utf8 ?_
    apply wanted (.utf8 text)
    rw [Option.mem_def] at present
    simp [present]
  exact simple.bind fun _ _ => .pure trivial

namespace ClassDecl

private theorem asks_sourceAttributes {decl : ClassDecl}
    (wanted : ∀ entry ∈ sourceEntries decl.sourceFile, entries entry) :
    Asks decl.sourceAttributes entries (Named entries) := by
  unfold sourceAttributes
  cases source : decl.sourceFile with
  | none => exact .pure named_nil
  | some name =>
    rw [source] at wanted
    refine (ConstantPool.asks_utf8 (wanted (.utf8 name) (by simp [sourceEntries]))).bind ?_
    exact fun _ _ => .pure (named_singleton (wanted _ List.mem_cons_self))

private theorem asks_innerAttributes {decl : ClassDecl}
    (wanted : ∀ entry ∈ innerEntries decl.innerClasses, entries entry) :
    Asks decl.innerAttributes entries (Named entries) := by
  unfold innerAttributes
  unfold innerEntries at wanted
  split
  · exact .pure named_nil
  · rename_i some_class
    rw [if_neg some_class] at wanted
    have each := List.forall_mem_flatMap.mp fun entry listed =>
      wanted entry (List.mem_cons_of_mem _ listed)
    refine (asks_concatenated fun entry member => asks_innerClass (each entry member)).bind ?_
    exact fun _ _ => .pure (named_singleton (wanted _ List.mem_cons_self))

theorem asks_body {decl : ClassDecl} (writable : ∀ method ∈ decl.methods, method.Writable)
    (wanted : ∀ entry ∈ decl.entries, entries entry) :
    Asks decl.body entries fun _ => True := by
  simp only [ClassDecl.entries, List.forall_mem_append] at wanted
  obtain ⟨⟨⟨⟨⟨⟨name, superName⟩, fields⟩, methods⟩, source⟩, inner⟩, annotations⟩ := wanted
  refine (ConstantPool.asks_classInfo name).bind ?_
  intro _ _
  refine (ConstantPool.asks_classInfo superName).bind ?_
  intro _ _
  refine (asks_concatenated fun field member =>
    asks_field (List.forall_mem_flatMap.mp fields field member)).bind ?_
  intro _ _
  refine (asks_concatenated fun method member =>
    asks_method (writable method member) (List.forall_mem_flatMap.mp methods method member)).bind ?_
  intro _ _
  have attributes : Asks decl.attributes entries (Named entries) := by
    refine (asks_sourceAttributes source).bind ?_
    intro first first_named
    refine (asks_innerAttributes inner).bind ?_
    intro second second_named
    refine (asks_annotationAttributes annotations).bind ?_
    intro third third_named
    exact .pure ((first_named.append second_named).append third_named)
  refine attributes.bind ?_
  intro contents named
  exact (asks_attributes named).bind fun _ _ => .pure trivial

/-- The reasons for which a class of short method bodies is not written: a text that is too long,
or more different entries than a pool can count. -/
inductive Refused (decl : ClassDecl) : FormatError → Prop
  | tooLong {entry : Entry} (listed : entry ∈ decl.entries) (long : maxCount < entry.textLength) :
      Refused decl (.utf8TooLong entry.textLength)
  | full (many : maxCount ≤ decl.entries.dedup.length) : Refused decl .constantPoolOverflow

/-- A class whose method bodies can be written is written unless a pool has no place for it. -/
theorem toBytes_ok_or_refused {decl : ClassDecl} (few : decl.tooMany? = none)
    (writable : ∀ method ∈ decl.methods, method.Writable) :
    (∃ bytes, decl.toBytes = .ok bytes) ∨ ∃ e, decl.toBytes = .error e ∧ decl.Refused e := by
  have ended : Ends (· ∈ decl.entries) (fun _ => True) (decl.body .empty) :=
    asks_body writable (fun _ listed => listed) .empty .refl
      (ConstantPool.covered_empty _)
  unfold toBytes
  rw [few]
  cases done : decl.body .empty with
  | ok body pool => exact .inl ⟨_, rfl⟩
  | error e pool =>
    rw [done] at ended
    refine .inr ⟨e, rfl, ?_⟩
    cases ended with
    | tooLong listed long => exact .tooLong listed long
    | full crowded => exact .full crowded.maxCount_le

/-- A class of short texts and few different entries is written. -/
theorem exists_toBytes {decl : ClassDecl} (few : decl.tooMany? = none)
    (writable : ∀ method ∈ decl.methods, method.Writable)
    (short : ∀ entry ∈ decl.entries, entry.textLength ≤ maxCount)
    (room : decl.entries.dedup.length < maxCount) : ∃ bytes, decl.toBytes = .ok bytes := by
  rcases toBytes_ok_or_refused few writable with written | ⟨e, _, refused⟩
  · exact written
  · cases refused with
    | tooLong listed long => exact absurd long (Nat.not_lt_of_le (short _ listed))
    | full many => exact absurd many (Nat.not_le_of_lt room)

end ClassDecl

end ResourceClasses.ClassFile
