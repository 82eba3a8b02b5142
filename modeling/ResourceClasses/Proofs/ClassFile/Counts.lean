import ResourceClasses.Proofs.ClassFile.PoolCalls
import ResourceClasses.Proofs.ClassFile.Progress

/-!
Lists that are too long to be counted: those that are refused when a class is written, and what
stands between the others and a class file.

The lengths of the annotations and of their elements are not looked at. They fail to be written only
through the pool, and a pool that has taken an item once takes it any number of times. So a class is
refused with all its annotations exactly if it is refused when each of them stands there once.

Main statement:
* `toBytes_eq_error_iff`: the errors with which a class is not written.
-/

set_option autoImplicit false

namespace ResourceClasses.ClassFile

namespace Pooled

variable {α β γ δ : Type}

/-- Two ends that leave one pool: both failed with one error, or both succeeded with values that
belong together. -/
inductive Matches (related : α → β → Prop) :
    EStateM.Result FormatError ConstantPool α → EStateM.Result FormatError ConstantPool β → Prop
  | ok {value : α} {other : β} {pool : ConstantPool} (belong : related value other) :
      Matches related (.ok value pool) (.ok other pool)
  | error {error : FormatError} {pool : ConstantPool} :
      Matches related (.error error pool) (.error error pool)

/-- Whether two computations match, whichever pool they start with. -/
def Alike (related : α → β → Prop) (first : Pooled α) (second : Pooled β) : Prop :=
  ∀ pool, Matches related (first pool) (second pool)

/-- Any two values belong together. -/
def anyTwo (_ : α) (_ : β) : Prop := True

theorem Matches.bind {related : α → β → Prop} {also : γ → δ → Prop} {first : Pooled α}
    {second : Pooled β} {next : α → Pooled γ} {other : β → Pooled δ}
    {pool : ConstantPool} (begun : Matches related (first pool) (second pool))
    (goes : ∀ value value' later, first pool = .ok value later → related value value' →
      Matches also (next value later) (other value' later)) :
    Matches also ((first >>= next) pool) ((second >>= other) pool) := by
  change Matches also (EStateM.bind first next pool) (EStateM.bind second other pool)
  unfold EStateM.bind
  cases first_end : first pool with
  | ok value later =>
    rw [first_end] at begun
    cases second_end : second pool with
    | ok value' later' =>
      rw [second_end] at begun
      cases begun with
      | ok belong => exact goes value value' later first_end belong
    | error error later' =>
      rw [second_end] at begun
      cases begun
  | error error later =>
    rw [first_end] at begun
    cases second_end : second pool with
    | ok value' later' =>
      rw [second_end] at begun
      cases begun
    | error error' later' =>
      rw [second_end] at begun
      cases begun
      exact .error

namespace Alike

variable {related : α → β → Prop} {also : γ → δ → Prop}

theorem refl (action : Pooled α) : Alike (· = ·) action action := by
  intro pool
  cases action pool with
  | ok value later => exact .ok rfl
  | error error later => exact .error

theorem pure {value : α} {other : β} (belong : related value other) :
    Alike related (Pure.pure value) (Pure.pure other) :=
  fun _ => .ok belong

theorem bind {first : Pooled α} {second : Pooled β} {next : α → Pooled γ} {other : β → Pooled δ}
    (begun : Alike related first second)
    (goes : ∀ value value', related value value' → Alike also (next value) (other value')) :
    Alike also (first >>= next) (second >>= other) :=
  fun pool => (begun pool).bind fun value value' later _ belong => goes value value' belong later

/-- Both go on after the same first part. -/
theorem after (action : Pooled α) {next : α → Pooled γ} {other : α → Pooled δ}
    (goes : ∀ value, Alike also (next value) (other value)) :
    Alike also (action >>= next) (action >>= other) := by
  refine (refl action).bind ?_
  rintro value _ rfl
  exact goes value

theorem mono {weaker : α → β → Prop} {first : Pooled α} {second : Pooled β}
    (alike : Alike related first second)
    (implies : ∀ value other, related value other → weaker value other) :
    Alike weaker first second := by
  intro pool
  have ended := alike pool
  generalize first pool = first_end at ended ⊢
  generalize second pool = second_end at ended ⊢
  cases ended with
  | ok belong => exact .ok (implies _ _ belong)
  | error => exact .error

theorem trans {first : Pooled α} {second : Pooled β} {third : Pooled γ}
    (one : Alike anyTwo first second) (two : Alike anyTwo second third) :
    Alike anyTwo first third := by
  intro pool
  have begun := one pool
  have ended := two pool
  generalize first pool = first_end at begun ⊢
  generalize second pool = second_end at begun ended
  generalize third pool = third_end at ended ⊢
  cases begun with
  | ok _ =>
    cases ended with
    | ok _ => exact .ok trivial
  | error =>
    cases ended with
    | error => exact .error

end Alike

end Pooled

open Pooled

section Lists

variable {α β : Type} {write : α → Pooled (List UInt8)} {other : β → Pooled (List UInt8)}

private theorem alike_mapM {items : List α} {others : List β}
    (each : List.Forall₂ (fun item item' => Alike anyTwo (write item) (other item')) items others) :
    Alike anyTwo (items.mapM write) (others.mapM other) := by
  induction each with
  | nil =>
    rw [List.mapM_nil, List.mapM_nil]
    exact .pure trivial
  | cons head _ ih =>
    rw [List.mapM_cons, List.mapM_cons]
    exact head.bind fun _ _ _ => ih.bind fun _ _ _ => .pure trivial

/-- Lists are written alike when their items are. -/
theorem alike_concatenated {items : List α} {others : List β}
    (each : List.Forall₂ (fun item item' => Alike anyTwo (write item) (other item')) items others) :
    Alike anyTwo (concatenated write items) (concatenated other others) :=
  (alike_mapM each).bind fun _ _ _ => .pure trivial

theorem alike_concatenated_map {change : α → β}
    (each : ∀ item, Alike anyTwo (write item) (other (change item))) (items : List α) :
    Alike anyTwo (concatenated write items) (concatenated other (items.map change)) := by
  refine alike_concatenated ?_
  rw [List.forall₂_map_right_iff, List.forall₂_same]
  exact fun item _ => each item

private theorem interns_mapM (interns : ∀ item, Interns (write item)) (items : List α) :
    Interns (items.mapM write) := by
  induction items with
  | nil =>
    rw [List.mapM_nil]
    exact .pure _
  | cons item rest ih =>
    rw [List.mapM_cons]
    exact (interns item).bind fun _ => ih.bind fun _ => .pure _

theorem interns_concatenated (interns : ∀ item, Interns (write item)) (items : List α) :
    Interns (concatenated write items) :=
  (interns_mapM interns items).bind fun _ => .pure _

variable [BEq α] [LawfulBEq α]

/-- An item that a pool has taken is passed over when the rest is written. -/
private theorem matches_filter (interns : ∀ item, Interns (write item)) {item : α}
    {piece : List UInt8} {taken : ConstantPool}
    (settled : ∀ last, taken.Grown last → write item last = .ok piece last) (rest : List α)
    {pool : ConstantPool} (grown : taken.Grown pool) :
    Matches anyTwo (rest.mapM write pool)
      ((rest.filter fun next => !next == item).mapM write pool) := by
  induction rest generalizing pool with
  | nil =>
    rw [List.filter_nil, List.mapM_nil]
    exact .ok trivial
  | cons next rest ih =>
    by_cases same : next = item
    · rw [List.filter_cons_of_neg (by simp [same]), List.mapM_cons, same,
        bind_of_ok (settled pool grown),
        ← bind_pure ((rest.filter fun next => !next == item).mapM write)]
      exact (ih grown).bind fun _ _ _ _ _ => .ok trivial
    · rw [List.filter_cons_of_pos (by simp [same]), List.mapM_cons, List.mapM_cons]
      refine (Alike.refl (write next) pool).bind ?_
      rintro value _ later done rfl
      have more := (interns next).grown pool
      rw [after_of_ok done] at more
      exact (ih (grown.trans more)).bind fun _ _ _ _ _ => .ok trivial

private theorem alike_mapM_eraseDups (interns : ∀ item, Interns (write item)) (items : List α) :
    Alike anyTwo (items.mapM write) (items.eraseDups.mapM write) := by
  match items with
  | [] => exact (Alike.refl _).mono fun _ _ _ => trivial
  | item :: rest =>
    intro pool
    rw [List.eraseDups_cons, List.mapM_cons, List.mapM_cons]
    refine (Alike.refl (write item) pool).bind ?_
    rintro piece _ taken done rfl
    have settled := (interns item).again pool piece taken done
    have passed : Alike anyTwo (fun _ => rest.mapM write taken) fun _ =>
        (rest.filter fun next => !next == item).mapM write taken :=
      fun _ => matches_filter interns settled rest .refl
    have fewer : Alike anyTwo (fun _ => (rest.filter fun next => !next == item).mapM write taken)
        fun _ => (rest.filter fun next => !next == item).eraseDups.mapM write taken :=
      fun _ => alike_mapM_eraseDups interns _ taken
    exact (passed.trans fewer taken).bind fun _ _ _ _ _ => .ok trivial
termination_by items.length
decreasing_by exact Nat.lt_succ_of_le (List.length_filter_le _ _)

/-- A list is written like its items without repetitions. -/
theorem alike_concatenated_eraseDups (interns : ∀ item, Interns (write item)) (items : List α) :
    Alike anyTwo (concatenated write items) (concatenated write items.eraseDups) :=
  (alike_mapM_eraseDups interns items).bind fun _ _ _ => .pure trivial

end Lists

theorem interns_element (element : String × ElementValue) : Interns (elementBytes element) := by
  refine (Interns.utf8 element.1).bind fun _ => ?_
  cases element.2 with
  | string text => exact (Interns.utf8 text).bind fun _ => .pure _
  | int value => exact (Interns.integer value).bind fun _ => .pure _

theorem interns_annotation (note : Annotation) : Interns note.encode :=
  (Interns.utf8 note.descriptor).bind fun _ =>
    (interns_concatenated interns_element note.elements).bind fun _ => .pure _

/-- An annotation with each of its elements once. -/
def Annotation.unrepeated (note : Annotation) : Annotation :=
  { note with elements := note.elements.eraseDups }

/-- Some annotations, each of them and each of their elements once. -/
def unrepeated (annotations : List Annotation) : List Annotation :=
  (annotations.map Annotation.unrepeated).eraseDups

/-- A field with each of its annotations once. -/
def FieldDecl.unrepeated (field : FieldDecl) : FieldDecl :=
  { field with annotations := ClassFile.unrepeated field.annotations }

/-- A class with each of its annotations, and of those of its fields, once. -/
def ClassDecl.unrepeated (decl : ClassDecl) : ClassDecl :=
  { decl with
    annotations := ClassFile.unrepeated decl.annotations
    fields := decl.fields.map FieldDecl.unrepeated }

theorem alike_annotation (note : Annotation) :
    Alike anyTwo note.encode note.unrepeated.encode := by
  have elements : Alike anyTwo (concatenated elementBytes note.elements)
      (concatenated elementBytes note.unrepeated.elements) :=
    alike_concatenated_eraseDups interns_element note.elements
  exact .after _ fun _ => elements.bind fun _ _ _ => .pure trivial

theorem alike_annotationsBody (annotations : List Annotation) :
    Alike anyTwo (annotationsBody annotations) (annotationsBody (unrepeated annotations)) := by
  have each := alike_concatenated_map alike_annotation annotations
  have once := alike_concatenated_eraseDups interns_annotation
    (annotations.map Annotation.unrepeated)
  exact (each.trans once).bind fun _ _ _ => .pure trivial

/-- Whether two lists of attributes have the same names. -/
def SameNames (first second : List (KnownAttribute × List UInt8)) : Prop :=
  List.Forall₂ (fun content content' => content.1 = content'.1) first second

theorem isEmpty_unrepeated (annotations : List Annotation) :
    (unrepeated annotations).isEmpty = annotations.isEmpty := by
  cases annotations with
  | nil => rfl
  | cons note rest =>
    rw [unrepeated, List.map_cons, List.eraseDups_cons]
    rfl

theorem alike_annotationAttributes (annotations : List Annotation) :
    Alike SameNames (annotationAttributes annotations)
      (annotationAttributes (unrepeated annotations)) := by
  unfold annotationAttributes
  rw [isEmpty_unrepeated]
  split
  · exact .pure .nil
  · exact (alike_annotationsBody annotations).bind fun _ _ _ => .pure (.cons rfl .nil)

theorem alike_attributesBytes {first second : List (KnownAttribute × List UInt8)}
    (names : SameNames first second) :
    Alike anyTwo (attributesBytes first) (attributesBytes second) := by
  refine (alike_concatenated (names.imp ?_)).bind fun _ _ _ => .pure trivial
  intro content content' name
  unfold attributeBytes
  rw [name]
  exact .after _ fun _ => .pure trivial

theorem sameNames_refl (contents : List (KnownAttribute × List UInt8)) :
    SameNames contents contents :=
  List.forall₂_same.mpr fun _ _ => rfl

theorem alike_field (field : FieldDecl) :
    Alike anyTwo field.encode field.unrepeated.encode :=
  .after _ fun _ => .after _ fun _ => .after _ fun constants =>
    (alike_annotationAttributes field.annotations).bind fun _ _ names =>
      (alike_attributesBytes (List.rel_append (sameNames_refl constants) names)).bind fun _ _ _ =>
        .pure trivial

namespace ClassDecl

theorem alike_attributes (decl : ClassDecl) :
    Alike SameNames decl.attributes decl.unrepeated.attributes :=
  .after _ fun source => .after _ fun inner =>
    (alike_annotationAttributes decl.annotations).bind fun _ _ names =>
      .pure (List.rel_append (sameNames_refl (source ++ inner)) names)

theorem alike_body (decl : ClassDecl) : Alike anyTwo decl.body decl.unrepeated.body :=
  .after _ fun _ => .after _ fun _ =>
    (alike_concatenated_map alike_field decl.fields).bind fun _ _ _ => .after _ fun _ =>
      decl.alike_attributes.bind fun _ _ names =>
        (alike_attributesBytes names).bind fun _ _ _ => .pure trivial

/-- The lists of a class whose lengths are checked, in the order of the checks. -/
def checkedLengths (decl : ClassDecl) : List (CountedList × Nat) :=
  [(.fields, decl.fields.length), (.methods, decl.methods.length),
    (.innerClasses, decl.innerClasses.length)]

/-- The first checked list that is too long, and its length. -/
def overlong? (decl : ClassDecl) : Option (CountedList × Nat) :=
  decl.checkedLengths.find? fun (_, count) => maxCount < count

theorem tooMany?_eq_overlong? (decl : ClassDecl) :
    decl.tooMany? = decl.overlong?.map fun (list, count) => .tooMany list decl.name count := by
  unfold tooMany? overlong? checkedLengths
  split
  · rename_i long
    rw [List.find?_cons_of_pos (by simpa using long)]
    rfl
  · rename_i few_fields
    rw [List.find?_cons_of_neg (by simpa using few_fields)]
    split
    · rename_i long
      rw [List.find?_cons_of_pos (by simpa using long)]
      rfl
    · rename_i few_methods
      rw [List.find?_cons_of_neg (by simpa using few_methods)]
      split
      · rename_i long
        rw [List.find?_cons_of_pos (by simpa using long)]
        rfl
      · rename_i few_classes
        rw [List.find?_cons_of_neg (by simpa using few_classes)]
        rfl

theorem overlong?_unrepeated (decl : ClassDecl) : decl.unrepeated.overlong? = decl.overlong? := by
  have fields : decl.unrepeated.fields.length = decl.fields.length := List.length_map _
  rw [overlong?, checkedLengths, fields]
  rfl

/-- A class of countable lists is refused exactly if it is without the repetitions. -/
theorem toBytes_eq_error_unrepeated {decl : ClassDecl} (few : decl.overlong? = none)
    (error : FormatError) :
    decl.toBytes = .error error ↔ decl.unrepeated.toBytes = .error error := by
  have unchecked : decl.tooMany? = none := by rw [tooMany?_eq_overlong?, few, Option.map_none]
  have also_unchecked : decl.unrepeated.tooMany? = none := by
    rw [tooMany?_eq_overlong?, overlong?_unrepeated, few, Option.map_none]
  have alike := decl.alike_body .empty
  rw [toBytes, toBytes, unchecked, also_unchecked]
  generalize decl.body .empty = first_end at alike ⊢
  generalize decl.unrepeated.body .empty = second_end at alike ⊢
  cases alike with
  | ok _ => simp
  | error => simp

/-- A class is not written for one of two reasons. The first of its fields, methods and nested
classes that are too many to be counted is refused by its name and number. Otherwise it is refused
for what the class without repeated annotations and elements is refused for, however many of them
there are. -/
theorem toBytes_eq_error_iff (decl : ClassDecl) (error : FormatError) :
    decl.toBytes = .error error ↔
      match decl.overlong? with
      | some (list, count) => error = .tooMany list decl.name count
      | none => decl.unrepeated.toBytes = .error error := by
  cases first : decl.overlong? with
  | none => exact toBytes_eq_error_unrepeated first error
  | some found =>
    obtain ⟨list, count⟩ := found
    have refused : decl.toBytes = .error (.tooMany list decl.name count) := by
      rw [toBytes, tooMany?_eq_overlong?, first]
      rfl
    rw [refused, Except.error.injEq, eq_comm]

/-- A class with one annotation as often as the annotations can no longer be counted. -/
def annotatedTooOften : ClassDecl where
  access := Access.publicFlag
  name := "K"
  superName := "java/lang/Object"
  annotations := List.replicate 65536 ⟨"A", []⟩

private theorem unrepeated_annotatedTooOften :
    annotatedTooOften.unrepeated = { annotatedTooOften with annotations := [⟨"A", []⟩] } := by
  have once : ClassFile.unrepeated annotatedTooOften.annotations = [⟨"A", []⟩] := by
    rw [annotatedTooOften, ClassFile.unrepeated, List.map_replicate, List.replicate_succ,
      List.eraseDups_cons, List.filter_replicate, if_neg (by decide)]
    rfl
  rw [unrepeated, once]
  rfl

/-- A class with more annotations than can be counted is written, and the number that is written
for them is that of no annotations. -/
theorem annotatedTooOften_written :
    maxCount < annotatedTooOften.annotations.length ∧
      bigEndian 2 annotatedTooOften.annotations.length = bigEndian 2 0 ∧
        ∃ bytes, annotatedTooOften.toBytes = .ok bytes := by
  have often : annotatedTooOften.annotations.length = 65536 := List.length_replicate
  refine ⟨by rw [often]; decide, by rw [often]; decide, ?_⟩
  cases written : annotatedTooOften.toBytes with
  | ok bytes => exact ⟨bytes, rfl⟩
  | error error =>
    have few : annotatedTooOften.overlong? = none := rfl
    have refused := (toBytes_eq_error_unrepeated few error).mp written
    rw [unrepeated_annotatedTooOften] at refused
    obtain ⟨bytes, once⟩ : ∃ bytes,
        { annotatedTooOften with annotations := [⟨"A", []⟩] }.toBytes = .ok bytes :=
      exists_toBytes rfl (fun _ never => absurd never List.not_mem_nil) (by decide) (by decide)
    rw [once] at refused
    cases refused

end ClassDecl

end ResourceClasses.ClassFile
