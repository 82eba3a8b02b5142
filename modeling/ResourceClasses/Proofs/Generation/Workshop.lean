import Mathlib.Logic.Function.Basic
import ResourceClasses.Proofs.Generation.Request
import ResourceClasses.Proofs.Generation.Size

/-!
Workshops: any number of builders that serve requests on one disk, in any order. No request changes
or removes what is there, and once the outer class of a package is written no later request for the
same package can do anything.
-/

set_option autoImplicit false

namespace ResourceClasses.Generation

open Files (Disk FileStore Location place)

/-- Builders that work on one disk. -/
structure Workshop (ι : Type) (σ : Type := Disk) where
  builders : ι → Builder
  disk : σ

/-- A request that is served in a workshop: who serves it, and the builder and the disk before. -/
structure Turn (ι α : Type) [ResourceField α] (σ : Type := Disk) where
  who : ι
  request : Request α
  builder : Builder
  disk : σ

variable {ι α σ : Type} [ResourceField α] [FileStore (StateM σ)]

namespace Turn

def reply (turn : Turn ι α σ) : Reply σ :=
  turn.builder.serve turn.request turn.disk

/-- Whether a turn makes a file at a place where nothing was. -/
def Makes (turn : Turn ι α) (location : Location) : Prop :=
  turn.disk.Gains turn.reply.disk location

/-- Whether a turn writes the outer class of the package of its request. -/
def WritesOuter (turn : Turn ι α) : Prop :=
  turn.Makes (place (outerPath turn.builder.outDir turn.request.package))

end Turn

namespace Workshop

/-- The turn of a builder with a request. -/
def turn (workshop : Workshop ι σ) (call : ι × Request α) : Turn ι α σ :=
  ⟨call.1, call.2, workshop.builders call.1, workshop.disk⟩

variable [DecidableEq ι]

/-- The workshop after a turn. -/
def after (workshop : Workshop ι σ) (turn : Turn ι α σ) : Workshop ι σ :=
  ⟨Function.update workshop.builders turn.who turn.reply.builder, turn.reply.disk⟩

/-- The turns of some calls one after another. -/
def turns (workshop : Workshop ι σ) : List (ι × Request α) → List (Turn ι α σ)
  | [] => []
  | call :: rest => workshop.turn call :: (workshop.after (workshop.turn call)).turns rest

/-- The workshop after some calls. -/
def last (workshop : Workshop ι σ) : List (ι × Request α) → Workshop ι σ
  | [] => workshop
  | call :: rest => (workshop.after (workshop.turn call)).last rest

end Workshop

namespace Turn

variable {turn later : Turn ι α}

theorem serves (turn : Turn ι α) :
    turn.builder.Serves turn.request turn.disk turn.reply :=
  turn.builder.serves_serve turn.request turn.disk

theorem grows (turn : Turn ι α) : turn.disk.Grows turn.reply.disk :=
  turn.serves.grows

/-- A turn that writes the outer class of a package leaves it where its path leads. -/
theorem resolve_of_writesOuter (writes : turn.WritesOuter) :
    ∃ location node,
      turn.reply.disk.resolve (outerPath turn.builder.outDir turn.request.package) =
          .ok location ∧
        turn.reply.disk.node? location = some node := by
  obtain ⟨free, content, made⟩ := writes
  rcases turn.serves.nothing_or_outer with nothing | ⟨bytes, middle, first, rest⟩
  · have before := nothing.file_of_nothing made
    rw [free] at before
    exact absurd before.symm (Option.some_ne_none _)
  · obtain ⟨resolved, found⟩ := Disk.resolve_of_addFile first.added
    rw [Builder.path_outerFile] at resolved found
    exact ⟨_, _, rest.resolve resolved, rest _ _ found⟩

end Turn

namespace Builder

variable {builder : Builder} {disk : Disk} {root package : String} {location : Location}
  {node : Files.Node}

/-- The outer class of a package cannot be written once it is there, however the root is written, and
to prepare for it makes no directory. -/
private theorem not_writes_outerFile (same_root : Path.steps builder.outDir = Path.steps root)
    (resolved : disk.resolve (outerPath root package) = .ok location)
    (occupied : disk.node? location = some node) (types : List ResourceType) :
    ((builder.outerFile package types).prepareOn disk).2 = disk ∧
      ∀ bytes later, ¬(builder.outerFile package types).Writes disk bytes later := by
  have below : "R.class".startsWith '/' = false := by decide
  have same_directory := Name.steps_packageDir same_root package
  have prepared : ((builder.outerFile package types).prepareOn disk).2 = disk :=
    Disk.addPath_of_resolve_join resolved (by decide) below same_directory
  have same_place : location = place (outerPath builder.outDir package) := by
    rw [Disk.eq_place_of_resolve resolved, place, place, outerPath, outerPath,
      Path.steps_join_congr same_directory]
  refine ⟨prepared, fun bytes later writes => ?_⟩
  have added := writes.added
  rw [prepared, path_outerFile] at added
  have free := (Disk.eq_putFile_of_addFile added).1
  rw [same_place] at occupied
  exact absurd (occupied.symm.trans free) (Option.some_ne_none _)

/-- A request with fields for a package whose outer class is there does nothing. -/
theorem serve_of_occupied {request : Request α} (some_field : request.selected.isEmpty = false)
    (same_root : Path.steps builder.outDir = Path.steps root)
    (resolved : disk.resolve (outerPath root request.package) = .ok location)
    (occupied : disk.node? location = some node) :
    ∃ e, builder.serve request disk = ⟨.error e, builder, disk⟩ := by
  obtain ⟨prepared, never⟩ := not_writes_outerFile same_root resolved occupied
    (request.selected.toList.map Prod.fst)
  have serves := builder.serves_serve request disk
  generalize builder.serve request disk = reply at serves
  cases serves with
  | empty no_field _ => exact absurd (some_field.symm.trans no_field) Bool.false_ne_true
  | blocked no_field _ => exact absurd (some_field.symm.trans no_field) Bool.false_ne_true
  | complete _ writes =>
    rw [planned, packageFiles, List.cons_append] at writes
    cases writes with
    | cons first _ => exact absurd first (never _ _)
  | @stopped written _ file _ middle e _ split writes _ =>
    cases writes with
    | nil =>
      refine ⟨e, ?_⟩
      rw [← outerFile_of_planned split, prepared]
    | cons first _ =>
      rw [← outerFile_of_planned split] at first
      exact absurd first (never _ _)

end Builder

namespace Workshop

variable [DecidableEq ι]

section

variable (view : σ → Disk)
  (grows : ∀ turn : Turn ι α σ, (view turn.disk).Grows (view turn.reply.disk))
include grows

/-- If turns lose nothing, what is there at first is there at the end. -/
theorem grows_last (workshop : Workshop ι σ) (calls : List (ι × Request α)) :
    (view workshop.disk).Grows (view (workshop.last calls).disk) := by
  induction calls generalizing workshop with
  | nil => exact .refl _
  | cons call rest ih =>
    rw [last]
    exact (grows (workshop.turn call)).trans (ih (workshop.after (workshop.turn call)))

theorem grows_of_mem_turns (workshop : Workshop ι σ) {calls : List (ι × Request α)}
    {turn : Turn ι α σ} (member : turn ∈ workshop.turns calls) :
    (view workshop.disk).Grows (view turn.disk) := by
  induction calls generalizing workshop with
  | nil => contradiction
  | cons call rest ih =>
    rcases List.mem_cons.mp member with rfl | later
    · exact .refl _
    · exact (grows (workshop.turn call)).trans (ih (workshop.after (workshop.turn call)) later)

/-- If turns lose nothing, what a turn leaves is there in all later turns. -/
theorem pairwise_grows (workshop : Workshop ι σ) (calls : List (ι × Request α)) :
    (workshop.turns calls).Pairwise fun earlier later =>
      (view earlier.reply.disk).Grows (view later.disk) := by
  induction calls generalizing workshop with
  | nil => exact .nil
  | cons call rest ih =>
    exact .cons (fun later => grows_of_mem_turns view grows (workshop.after (workshop.turn call)))
      (ih _)

end

/-- No turn changes or removes a file that was there before it, and once a turn has written the outer
class of a package, every later turn with fields for the same package below the same root, however
that is written, fails and leaves the disk and its builder as they were. -/
theorem turns_keep_files (workshop : Workshop ι) (calls : List (ι × Request α)) :
    (∀ turn ∈ workshop.turns calls, ∀ location content,
      turn.disk.node? location = some (.file content) →
        turn.reply.disk.node? location = some (.file content)) ∧
    (workshop.turns calls).Pairwise fun earlier later =>
      earlier.WritesOuter →
        Path.steps later.builder.outDir = Path.steps earlier.builder.outDir →
          later.request.package = earlier.request.package →
            later.request.selected.isEmpty = false →
              ∃ e, later.reply = ⟨.error e, later.builder, later.disk⟩ := by
  constructor
  · intro turn _ location content found
    exact turn.grows location _ found
  · -- The path to the outer class still leads to it in every later turn.
    refine (pairwise_grows (fun disk => disk) Turn.grows workshop calls).imp ?_
    intro earlier later grows writes same_root same_package some_field
    obtain ⟨location, node, resolved, occupied⟩ := earlier.resolve_of_writesOuter writes
    have found := grows.resolve resolved
    rw [← same_package] at found
    exact Builder.serve_of_occupied some_field same_root found (grows location node occupied)

end Workshop

section

open ClassFile (ClassDecl)

/-- A shared id whose class goes into the same directory as the classes of the default package. -/
def idsShared : SharedId :=
  ⟨"Ids", 0x7f000000⟩

def idsBuilder : Builder :=
  { outDir := "", config := { sharedId := some idsShared } }

def idsSymbol : Symbol :=
  ⟨"one", .int 0x7f010001, none⟩

def idsWorkshop : Workshop Unit :=
  ⟨fun _ => idsBuilder, .empty⟩

def idsRequest : Request Symbol :=
  ⟨"", FieldTable.empty.push .id idsSymbol, none⟩

private def idsClass : ClassDecl :=
  innerClassOf "R" .id [idsSymbol] idsBuilder.config [⟨12, [idsSymbol]⟩]

private theorem idsClass_encoded : ∃ bytes, idsClass.toBytes = .ok bytes := by
  have fits : ∀ block ∈ [(⟨12, [idsSymbol]⟩ : Block Symbol)],
      block.Fits (prologueSize idsBuilder.config.sharedId.isSome)
        (Symbol.maxCodeSize idsBuilder.config.sharedId.isSome) := by
    intro block member
    rw [List.mem_singleton.mp member]
    exact ⟨List.cons_ne_nil _ _, rfl, by decide⟩
  have writable := writable_innerClassOf "R" .id [idsSymbol] idsBuilder.config fits
  exact ClassDecl.exists_toBytes rfl writable (by decide +kernel) (by decide +kernel)

private theorem idsOuter_encoded :
    ∃ bytes, (outerClass "R" idsBuilder.config [.id]).toBytes = .ok bytes := by
  have writable : ∀ method ∈ (outerClass "R" idsBuilder.config [.id]).methods,
      method.Writable := by
    intro method member
    rw [List.mem_singleton.mp member]
    exact writable_constructor
  exact ClassDecl.exists_toBytes rfl writable (by decide) (by decide)

private theorem idsShared_encoded : ∃ bytes, (sharedIdClass idsShared).toBytes = .ok bytes :=
  ClassDecl.exists_toBytes rfl (fun _ never => by contradiction) (by decide +kernel)
    (by decide +kernel)

theorem sharedIdPath_ids : sharedIdPath "" idsShared = "Ids.class" := by
  decide +kernel

/-- The three files of the plan go to places below the root that are free one after another. -/
private theorem idsFiles_written :
    ∃ created later,
      WritesAll .empty (idsBuilder.planned "" idsRequest.selected) created later := by
  have free : ∀ name, Disk.empty.node? [name] = none := by
    intro name
    simp [Disk.node?, Disk.empty]
  have innerDecl : (idsBuilder.innerFile "" (.id, [idsSymbol])).decl = .ok idsClass := rfl
  have outerPath_eq : outerPath "" "" = "R.class" := by decide
  have innerPath_eq : innerPath "" "" .id = "R$id.class" := by decide
  obtain ⟨_, first, outer, kept⟩ :=
    PlannedFile.exists_writes_below_root (idsBuilder.outerFile "" [.id]) rfl rfl
      idsOuter_encoded outerPath_eq (by decide) (by decide) (by decide) (free "R.class")
  obtain ⟨_, second, inner, kept'⟩ :=
    PlannedFile.exists_writes_below_root (idsBuilder.innerFile "" (.id, [idsSymbol])) rfl
      innerDecl idsClass_encoded innerPath_eq (by decide) (by decide) (by decide)
      (by rw [kept _ (by decide), free])
  have prepared : (sharedIdFile "" idsShared).prepareOn second = (.ok (), second) := by
    have root : Path.directory "Ids.class" = "" := by decide
    have wanted : (sharedIdFile "" idsShared).directory = some "" := by
      rw [sharedIdFile, sharedIdPath_ids, root]
    rw [PlannedFile.prepareOn, wanted]
    rfl
  obtain ⟨_, third, shared, -⟩ :=
    PlannedFile.exists_writes_below_root (sharedIdFile "" idsShared) prepared rfl idsShared_encoded
      sharedIdPath_ids (by decide) (by decide) (by decide)
      (by rw [kept' _ (by decide), kept _ (by decide), free])
  exact ⟨_, third, .cons outer (.cons inner (.cons shared .nil))⟩

/-- On an empty disk the request is served. -/
theorem idsRequest_served :
    ∃ created later,
      WritesAll .empty (idsBuilder.planned "" idsRequest.selected) created later ∧
        idsBuilder.serve idsRequest .empty = ⟨.ok 1, idsBuilder.finished, later⟩ := by
  obtain ⟨created, later, writes⟩ := idsFiles_written
  have some_field : idsRequest.selected.isEmpty = false := rfl
  exact ⟨created, later, writes, Builder.serve_of_writesAll some_field writes⟩

/-- A package whose classes have been written is refused the second time. -/
theorem Workshop.turns_keep_files_again :
    (idsWorkshop.turn ((), idsRequest)).WritesOuter ∧
      idsRequest.selected.isEmpty = false ∧
      ∃ e, ((idsWorkshop.after (idsWorkshop.turn ((), idsRequest))).turn ((), idsRequest)).reply =
        ⟨.error e, idsBuilder.finished, (idsWorkshop.turn ((), idsRequest)).reply.disk⟩ := by
  have some_field : idsRequest.selected.isEmpty = false := rfl
  obtain ⟨created, later, writes, served⟩ := idsRequest_served
  have first : (idsWorkshop.turn ((), idsRequest)).reply = ⟨.ok 1, idsBuilder.finished, later⟩ :=
    served
  have writesOuter : (idsWorkshop.turn ((), idsRequest)).WritesOuter := by
    have creates := writes.creates
    cases writes with
    | @cons _ _ _ _ _ bytes _ _ _ =>
      rw [Builder.path_outerFile] at creates
      refine ⟨creates.free _ List.mem_cons_self, bytes, ?_⟩
      rw [first]
      exact (creates.files _ _).mpr (.inr List.mem_cons_self)
  have now : (idsWorkshop.after (idsWorkshop.turn ((), idsRequest))).builders () =
      idsBuilder.finished :=
    (Function.update_self () _ idsWorkshop.builders).trans (congrArg Reply.builder first)
  have pairs := (turns_keep_files idsWorkshop [((), idsRequest), ((), idsRequest)]).2
  rw [turns, turns, turns, List.pairwise_cons] at pairs
  have same_root : Path.steps idsBuilder.finished.outDir = Path.steps idsBuilder.outDir := rfl
  rw [← now] at same_root
  obtain ⟨e, refused⟩ := pairs.1 _ List.mem_cons_self writesOuter same_root rfl some_field
  refine ⟨writesOuter, some_field, e, refused.trans ?_⟩
  rw [← now]
  rfl

end

end ResourceClasses.Generation
