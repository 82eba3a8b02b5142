import ResourceClasses.Proofs.Field.Table
import ResourceClasses.Proofs.Generation.Faults
import ResourceClasses.Proofs.Generation.ReadBack

/-!
The class of the package id: a builder writes it once, at the end of its first generation that
succeeds with a field, and remembers exactly that, whatever faults its generations meet.
-/

set_option autoImplicit false

namespace ResourceClasses.Generation

open Files (Disk FaultyDisk FileStore place runOn runOn_bind runOn_bind_ok runOn_bind_eq_ok_iff)

variable {ι α σ : Type} [ResourceField α] [FileStore (StateM σ)]

namespace Turn

variable {turn : Turn ι α σ} {file : PlannedFile} {middle later : σ}

/-- The class files that a turn is to write if its request has a field. -/
def planned (turn : Turn ι α σ) : List PlannedFile :=
  turn.builder.planned turn.request.package turn.request.selected

/-- Whether a turn succeeds with at least one field. -/
def Delivers (turn : Turn ι α σ) : Prop :=
  ∃ count, turn.reply.outcome = .ok count ∧ 0 < count

/-- Whether a turn gets to a class file of its plan, after it has written all those before it, and on
which disk. -/
structure Reaches (turn : Turn ι α σ) (file : PlannedFile) (middle : σ) : Prop where
  some_field : turn.request.selected.isEmpty = false
  written : ∃ before rest, turn.planned = before ++ file :: rest ∧
    runOn (before.forM PlannedFile.write) turn.disk = (.ok (), middle)

/-- A turn that delivers writes its whole plan, and another one leaves its builder as it was. -/
theorem delivers_or_not (turn : Turn ι α σ) :
    (turn.Delivers ∧ turn.reply.builder = turn.builder.finished ∧
      runOn (turn.planned.forM PlannedFile.write) turn.disk = (.ok (), turn.reply.disk)) ∨
    (¬turn.Delivers ∧ turn.reply.builder = turn.builder) := by
  unfold Delivers planned
  rw [reply]
  cases fields : turn.request.selected.isEmpty with
  | true =>
    rw [Builder.serve_of_isEmpty fields]
    rcases runOn (createDirs (turn.builder.directory turn.request)) turn.disk with ⟨_ | _, _⟩
    · refine .inr ⟨?_, rfl⟩
      rintro ⟨count, ⟨⟩, -⟩
    · refine .inr ⟨?_, rfl⟩
      rintro ⟨count, ⟨⟩, never⟩
      exact absurd never (Nat.lt_irrefl 0)
  | false =>
    rw [Builder.serve_of_fields fields]
    rcases runOn ((turn.builder.planned turn.request.package turn.request.selected).forM
      PlannedFile.write) turn.disk with ⟨_ | _, _⟩
    · refine .inr ⟨?_, rfl⟩
      rintro ⟨count, ⟨⟩, -⟩
    · exact .inl ⟨⟨_, rfl, FieldTable.size_pos fields⟩, rfl, rfl⟩

/-- A turn that fails at a class file ends there, with its builder as it was. -/
theorem Reaches.reply_of_error (reaches : turn.Reaches file middle) {e : GenerateError}
    (failed : runOn file.write middle = (.error e, later)) :
    turn.reply = ⟨.error e, turn.builder, later⟩ := by
  obtain ⟨before, rest, split, written⟩ := reaches.written
  have ended : runOn (turn.planned.forM PlannedFile.write) turn.disk = (.error e, later) := by
    have first : runOn ((file :: rest).forM PlannedFile.write) middle =
        runOn (file.write >>= fun _ => rest.forM PlannedFile.write) middle := rfl
    rw [split, PlannedFile.forM_write_append, runOn_bind_ok written, first, runOn_bind, failed]
  rw [reply, Builder.serve_of_fields reaches.some_field]
  rw [planned] at ended
  rw [ended]

end Turn

/-- The class of the package id is none of the classes of a package: it has no constructor, and the
classes of resource types have no directory of their own. -/
private theorem sharedIdFile_not_mem (builder : Builder) (package : String) (fields : FieldTable α)
    (outDir : String) (shared : SharedId) :
    sharedIdFile outDir shared ∉ builder.packageFiles package fields := by
  intro member
  rcases List.mem_cons.mp member with outer | inner
  · have same : sharedIdClass shared = outerClass (Name.outer package) builder.config _ :=
      Except.ok.inj (congrArg PlannedFile.decl outer)
    have methods : [] = [constructor] := congrArg ClassFile.ClassDecl.methods same
    exact absurd methods.symm (List.cons_ne_nil _ _)
  · obtain ⟨entry, -, same⟩ := List.mem_map.mp inner
    have directories : none = some _ := congrArg PlannedFile.directory same
    exact absurd directories.symm (Option.some_ne_none _)

/-- Only the last file of a plan can be another one than those of the package. -/
private theorem mem_packageFiles_of_mem_dropLast {builder : Builder} {package : String}
    {fields : FieldTable α} {file : PlannedFile}
    (member : file ∈ (builder.planned package fields).dropLast) :
    file ∈ builder.packageFiles package fields := by
  unfold Builder.planned Builder.dueFiles at member
  split at member
  · rw [List.append_nil] at member
    exact (List.dropLast_sublist _).subset member
  · split at member
    · rw [List.append_nil] at member
      exact (List.dropLast_sublist _).subset member
    · rw [List.dropLast_concat] at member
      exact member

/-- Whether a disk holds the class of the package id, with that id as the constant of its field. -/
def HoldsSharedId (disk : Disk) (path : String) (shared : SharedId) : Prop :=
  ∃ bytes file field,
    (sharedIdClass shared).toBytes = .ok bytes ∧ disk.read path = .ok bytes ∧
      ClassFile.parse bytes = .ok file ∧ file.thisClass = shared.internalName ∧
        file.fields = [field] ∧ field.name = SharedId.fieldName ∧ field.descriptor = "I" ∧
          field.constantValue? = some (.int shared.packageId)

private theorem fits_sharedIdClass (shared : SharedId) : (sharedIdClass shared).Fits where
  annotations := annotationsFit_nil
  fields := by
    intro field member
    rw [List.mem_singleton.mp member]
    exact annotationsFit_nil
  methods := fun _ never => by contradiction

private theorem HoldsSharedId.grows {disk later : Disk} {path : String} {shared : SharedId}
    (holds : HoldsSharedId disk path shared) (grows : disk.Grows later) :
    HoldsSharedId later path shared := by
  obtain ⟨bytes, file, field, encoded, found, facts⟩ := holds
  exact ⟨bytes, file, field, encoded, grows.read found, facts⟩

/-- A class of the package id that is written is read back with its constant. -/
private theorem holdsSharedId_of_read {disk : Disk} {path : String} {shared : SharedId}
    {bytes : List UInt8} (encoded : (sharedIdClass shared).toBytes = .ok bytes)
    (found : disk.read path = .ok bytes) : HoldsSharedId disk path shared := by
  obtain ⟨file, parsed, same⟩ :=
    ClassFile.ClassDecl.parse_toBytes (fits_sharedIdClass shared) encoded
  obtain ⟨field, others, read, nothing, fields⟩ := List.forall₂_cons_left_iff.mp same.fields
  rw [List.forall₂_nil_left_iff.mp nothing] at fields
  exact ⟨bytes, file, field, encoded, found, parsed, same.name, fields, read.name, read.descriptor,
    read.constant⟩

namespace Turn

variable {shared : SharedId} {outDir : String}

section

variable {turn : Turn ι α σ} {middle later : σ}

/-- A turn that writes the class of the package id delivers, since this class is the last one. -/
theorem Reaches.delivers_of_ok (reaches : turn.Reaches (sharedIdFile outDir shared) middle)
    (done : runOn (sharedIdFile outDir shared).write middle = (.ok (), later)) :
    turn.Delivers := by
  obtain ⟨some_field, before, rest, split, written⟩ := reaches
  -- Anything behind it in the plan would make it one of the classes of the package.
  have last : rest = [] := by
    cases rest with
    | nil => rfl
    | cons next more =>
      refine absurd (mem_packageFiles_of_mem_dropLast ?_)
        (sharedIdFile_not_mem turn.builder turn.request.package turn.request.selected outDir shared)
      rw [← planned, split, List.dropLast_append_cons, List.dropLast_cons_cons]
      exact List.mem_append_right before List.mem_cons_self
  have whole : runOn (turn.planned.forM PlannedFile.write) turn.disk = (.ok (), later) := by
    rw [split, last, PlannedFile.forM_write_append, PlannedFile.forM_write_singleton]
    exact runOn_bind_eq_ok_iff.mpr ⟨(), middle, written, done⟩
  refine ⟨turn.request.selected.size, ?_, FieldTable.size_pos some_field⟩
  rw [planned] at whole
  rw [reply, Builder.serve_of_fields some_field, whole]

/-- Once a builder knows that the class of the package id is written, no turn gets to it. -/
theorem not_reaches (written : turn.builder.sharedIdWritten = true) (outDir : String)
    (shared : SharedId) (middle : σ) : ¬turn.Reaches (sharedIdFile outDir shared) middle := by
  rintro ⟨-, before, rest, split, -⟩
  have nothing : turn.builder.dueFiles = [] := by
    unfold Builder.dueFiles
    cases turn.builder.config.sharedId with
    | none => rfl
    | some _ => rw [written]; rfl
  rw [planned, Builder.planned, nothing, List.append_nil] at split
  refine sharedIdFile_not_mem turn.builder turn.request.package turn.request.selected outDir shared
    ?_
  rw [split]
  exact List.mem_append_right _ List.mem_cons_self

end

/-- Whether a turn makes a file at a path where nothing was. -/
def MakesFile (turn : Turn ι α FaultyDisk) (path : String) : Prop :=
  turn.disk.toDisk.Gains turn.reply.disk.toDisk (place path)

/-- The first delivery of a builder with a shared id makes the class of the package id. -/
theorem makes_of_delivers {turn : Turn ι α FaultyDisk}
    (configured : turn.builder.config.sharedId = some shared)
    (unwritten : turn.builder.sharedIdWritten = false) (delivers : turn.Delivers) :
    turn.MakesFile (sharedIdPath turn.builder.outDir shared) ∧
      HoldsSharedId turn.reply.disk.toDisk (sharedIdPath turn.builder.outDir shared) shared := by
  rcases turn.delivers_or_not with ⟨-, -, whole⟩ | ⟨never, -⟩
  · have due : turn.builder.dueFiles = [sharedIdFile turn.builder.outDir shared] := by
      rw [Builder.dueFiles, configured]
      simp only [unwritten]
      rfl
    rw [planned, Builder.planned, due, PlannedFile.forM_write_append,
      PlannedFile.forM_write_singleton] at whole
    obtain ⟨⟨⟩, middle, before, last⟩ := runOn_bind_eq_ok_iff.mp whole
    have kept := PlannedFile.grows_forM_write
      (turn.builder.packageFiles turn.request.package turn.request.selected) turn.disk
    rw [before] at kept
    cases PlannedFile.leaves_of_write last with
    | @whole prepared _ bytes made content added =>
      obtain ⟨decl, declared, encoded⟩ := content
      rw [← Except.ok.inj declared] at encoded
      rw [path_sharedIdFile] at added
      have free := (kept.trans made.grows).free (Disk.eq_putFile_of_addFile added).1
      refine ⟨⟨free, bytes, (Disk.resolve_of_addFile added).2⟩, ?_⟩
      exact holdsSharedId_of_read encoded (Disk.read_addFile added (endsWith_join_class _ _))
  · exact absurd delivers never

end Turn

namespace Workshop

variable [DecidableEq ι]

/-- A turn changes a builder only if it is the builder's own and delivers. -/
private theorem builders_after (workshop : Workshop ι σ) (call : ι × Request α) (i : ι) :
    ((workshop.turn call).who = i ∧ (workshop.turn call).Delivers ∧
      (workshop.after (workshop.turn call)).builders i = (workshop.builders i).finished) ∨
    (¬((workshop.turn call).who = i ∧ (workshop.turn call).Delivers) ∧
      (workshop.after (workshop.turn call)).builders i = workshop.builders i) := by
  by_cases own : (workshop.turn call).who = i
  · subst own
    have now : (workshop.after (workshop.turn call)).builders (workshop.turn call).who =
        (workshop.turn call).reply.builder := Function.update_self _ _ _
    rcases (workshop.turn call).delivers_or_not with ⟨delivers, done, -⟩ | ⟨never, same⟩
    · exact .inl ⟨rfl, delivers, now.trans done⟩
    · exact .inr ⟨fun both => never both.2, now.trans same⟩
  · refine .inr ⟨fun both => own both.1, ?_⟩
    exact Function.update_of_ne (Ne.symm own) _ _

/-- A builder with a shared id knows that its class is written exactly if it knew or has delivered. -/
theorem sharedIdWritten_last {workshop : Workshop ι σ} {calls : List (ι × Request α)} {i : ι}
    {shared : SharedId} (configured : (workshop.builders i).config.sharedId = some shared) :
    ((workshop.last calls).builders i).sharedIdWritten = true ↔
      (workshop.builders i).sharedIdWritten = true ∨
        ∃ turn ∈ workshop.turns calls, turn.who = i ∧ turn.Delivers := by
  induction calls generalizing workshop with
  | nil => simp [last, turns]
  | cons call rest ih =>
    rw [last, turns]
    rcases builders_after workshop call i with ⟨own, delivers, now⟩ | ⟨other, now⟩
    · have known : (workshop.builders i).finished.sharedIdWritten = true := by
        rw [Builder.finished, configured, Option.isSome_some, Bool.or_true]
      rw [ih (by rw [now]; exact configured), now]
      exact ⟨fun _ => .inr ⟨_, List.mem_cons_self, own, delivers⟩, fun _ => .inl known⟩
    · rw [ih (by rw [now]; exact configured), now]
      simp only [List.mem_cons, exists_eq_or_imp, other, false_or]

variable {workshop : Workshop ι FaultyDisk} {calls : List (ι × Request α)} {i : ι}
  {shared : SharedId}

/-- The first delivery of a builder is made by the builder as it was at first, and what it leaves is
there at the end. -/
private theorem exists_first_delivery
    (some_delivery : ∃ turn ∈ workshop.turns calls, turn.who = i ∧ turn.Delivers) :
    ∃ before turn rest, workshop.turns calls = before ++ turn :: rest ∧
      (turn.who = i ∧ turn.Delivers) ∧ (∀ earlier ∈ before, ¬(earlier.who = i ∧ earlier.Delivers)) ∧
        turn.builder = workshop.builders i ∧
          turn.reply.disk.toDisk.Grows (workshop.last calls).disk.toDisk := by
  induction calls generalizing workshop with
  | nil =>
    obtain ⟨turn, never, -⟩ := some_delivery
    contradiction
  | cons call rest ih =>
    rw [turns] at some_delivery ⊢
    rw [last]
    by_cases first : (workshop.turn call).who = i ∧ (workshop.turn call).Delivers
    · refine ⟨[], _, _, rfl, first, fun _ never => by contradiction, ?_,
        grows_last FaultyDisk.toDisk Turn.grows_of_faults
          (workshop.after (workshop.turn call)) rest⟩
      exact congrArg workshop.builders first.1
    · obtain ⟨turn, member, delivers⟩ := some_delivery
      have later : turn ∈ (workshop.after (workshop.turn call)).turns rest := by
        rcases List.mem_cons.mp member with rfl | later
        · exact absurd delivers first
        · exact later
      obtain ⟨before, turn, others, split, own, none_before, same, grows⟩ :=
        ih ⟨turn, later, delivers⟩
      refine ⟨_ :: before, turn, others, congrArg (_ :: ·) split, own, ?_, ?_, grows⟩
      · intro earlier inside
        rcases List.mem_cons.mp inside with rfl | inside
        · exact first
        · exact none_before earlier inside
      · -- A turn that is not a delivery of the builder leaves it as it was.
        rcases builders_after workshop call i with ⟨own, delivers, -⟩ | ⟨-, now⟩
        · exact absurd ⟨own, delivers⟩ first
        · exact same.trans now

/-- What is known of the class of the package id after some calls in a workshop whose disk can have
any faults, for one of the builders: the builder knows at any point whether it has delivered; at most
one turn makes a file where the class goes; if the builder has delivered, this was its first delivery,
and the class is there; a turn that writes the class delivers; a turn that fails at it leaves the
builder as it was, and a beginning of the class at most; and once the builder has delivered, no turn
gets to the class again. -/
structure WritesSharedIdOnce (workshop : Workshop ι FaultyDisk) (i : ι) (shared : SharedId)
    (calls : List (ι × Request α)) : Prop where
  flag : ∀ earlier, earlier <+: calls →
    (((workshop.last earlier).builders i).sharedIdWritten = true ↔
      ∃ turn ∈ workshop.turns earlier, turn.who = i ∧ turn.Delivers)
  once : (workshop.turns calls).Pairwise fun earlier later =>
    earlier.MakesFile (sharedIdPath (workshop.builders i).outDir shared) →
      ¬later.MakesFile (sharedIdPath (workshop.builders i).outDir shared)
  first : ((workshop.last calls).builders i).sharedIdWritten = true →
    ∃ before turn rest, workshop.turns calls = before ++ turn :: rest ∧
      (turn.who = i ∧ turn.Delivers) ∧ (∀ earlier ∈ before, ¬(earlier.who = i ∧ earlier.Delivers)) ∧
        turn.MakesFile (sharedIdPath (workshop.builders i).outDir shared) ∧
          HoldsSharedId (workshop.last calls).disk.toDisk
            (sharedIdPath (workshop.builders i).outDir shared) shared
  delivered : ∀ turn ∈ workshop.turns calls, turn.who = i → ∀ middle later,
    turn.Reaches (sharedIdFile (workshop.builders i).outDir shared) middle →
      runOn (sharedIdFile (workshop.builders i).outDir shared).write middle = (.ok (), later) →
        turn.Delivers
  stopped : ∀ turn ∈ workshop.turns calls, turn.who = i → ∀ middle e later,
    turn.Reaches (sharedIdFile (workshop.builders i).outDir shared) middle →
      runOn (sharedIdFile (workshop.builders i).outDir shared).write middle = (.error e, later) →
        turn.reply = ⟨.error e, turn.builder, later⟩ ∧
          (sharedIdFile (workshop.builders i).outDir shared).Leaves middle.toDisk (.error e)
            later.toDisk
  unhindered : ∀ turn ∈ workshop.turns calls, turn.who = i →
    turn.builder.sharedIdWritten = true → ∀ middle,
      ¬turn.Reaches (sharedIdFile (workshop.builders i).outDir shared) middle

end Workshop

section

def idsNothing : Request Symbol :=
  ⟨"", .empty, none⟩

/-- A workshop on an empty disk whose first operation is to go wrong. -/
def faultyWorkshop : Workshop Unit FaultyDisk :=
  ⟨fun _ => idsBuilder, ⟨.empty, [some ⟨0, .notFound⟩]⟩⟩

/-- The same request twice. -/
def idsCalls : List (Unit × Request Symbol) :=
  [((), idsRequest), ((), idsRequest)]

end

end ResourceClasses.Generation
