import ResourceClasses.Files.Store
import ResourceClasses.Path
import Std.Data.HashMap

/-!
Disks: trees of directories and files as values. Paths are followed from the root, which is also the
working directory.
-/

set_option autoImplicit false

namespace ResourceClasses.Files

abbrev Location : Type :=
  List String

/-- What is at a place. -/
inductive Node
  | directory
  | file (content : List UInt8)
  deriving DecidableEq, Repr

/-- What is at the places below the root. -/
structure Disk where
  nodes : Std.HashMap Location Node

namespace Disk

def empty : Disk :=
  ⟨∅⟩

/-- What is at a place; the root is a directory. -/
def node? (disk : Disk) (location : Location) : Option Node :=
  if location.isEmpty then some .directory else disk.nodes[location]?

def put (disk : Disk) (location : Location) (node : Node) : Disk :=
  let ⟨nodes⟩ := disk
  ⟨nodes.insert location node⟩

/-- Putting something at a place below the root changes no other place. -/
theorem node?_put (disk : Disk) (location other : Location) (node : Node)
    (h : location.isEmpty = false) :
    (disk.put location node).node? other =
      if other = location then some node else disk.node? other := by
  obtain ⟨nodes⟩ := disk
  simp only [put, node?, Std.HashMap.getElem?_insert]
  by_cases same : other = location
  · subst same
    simp [h]
  · have different : (location == other) = false := by simpa using fun e => same e.symm
    simp [same, different]

def erase (disk : Disk) (location : Location) : Disk :=
  let ⟨nodes⟩ := disk
  ⟨nodes.erase location⟩

def maxNameSize : Nat := 255

def maxPathSize : Nat := 4095

/-- The place that a step leads to from a directory. -/
def enter (disk : Disk) (location : Location) (step : String) : Except FileError Location :=
  match disk.node? location with
  | none => .error .notFound
  | some (.file _) => .error .notADirectory
  | some .directory =>
    if step = Path.stay then .ok location
    else if step = Path.back then .ok location.dropLast
    else if step.utf8ByteSize > maxNameSize then .error .nameTooLong
    else .ok (location ++ [step])

/-- The place that a path leads to, at which there may be nothing. -/
def resolve (disk : Disk) (path : String) : Except FileError Location :=
  if path.isEmpty then .error .notFound
  else if path.utf8ByteSize > maxPathSize then .error .nameTooLong
  else (Path.steps path).foldlM disk.enter []

def read (disk : Disk) (path : String) : Except FileError (List UInt8) := do
  match disk.node? (← disk.resolve path) with
  | none => .error .notFound
  | some .directory => .error .isADirectory
  | some (.file content) =>
    if path.endsWith '/' then .error .notADirectory else .ok content

/-- The place that a path leads to, if there is nothing. -/
def freePlace (disk : Disk) (path : String) : Except FileError Location := do
  let location ← disk.resolve path
  match disk.node? location with
  | some _ => .error .alreadyExists
  | none => .ok location

/-- Makes an empty file and then writes its content. -/
def putFile (disk : Disk) (location : Location) (content : List UInt8) : Disk :=
  (disk.put location (.file [])).put location (.file content)

/-- Making an empty file first leaves nothing of its own. -/
theorem node?_putFile (disk : Disk) (location other : Location) (content : List UInt8)
    (h : location.isEmpty = false) :
    (disk.putFile location content).node? other =
      if other = location then some (.file content) else disk.node? other := by
  rw [putFile, node?_put _ _ _ _ h, node?_put _ _ _ _ h]
  split <;> rfl

/-- Makes an empty file. -/
def create (disk : Disk) (path : String) : Except FileError Location × Disk :=
  match disk.freePlace path with
  | .ok location => (.ok location, disk.put location (.file []))
  | .error e => (.error e, disk)

def addFile (disk : Disk) (path : String) (content : List UInt8) : Except FileError Disk := do
  let location ← disk.freePlace path
  .ok (disk.putFile location content)

/-- Whether steps stay in place, of which there is at least one. -/
def staysInPlace (steps : List String) : Bool :=
  !steps.isEmpty && steps.all (· == Path.stay)

/-- Makes the directories along some steps from a directory; those made before a failure stay. A
directory that the last steps stay in has to be there. -/
def addDirectories (disk : Disk) (location : Location) :
    List String → Except FileError Unit × Disk
  | [] => (.ok (), disk)
  | step :: rest =>
    if step = Path.stay then disk.addDirectories location rest
    else if step = Path.back then disk.addDirectories location.dropLast rest
    else if step.utf8ByteSize > maxNameSize then (.error .nameTooLong, disk)
    else
      let next := location ++ [step]
      match disk.node? next with
      | some .directory => disk.addDirectories next rest
      | some (.file _) => (.error .alreadyExists, disk)
      | none =>
        if staysInPlace rest then (.error .notFound, disk)
        else (disk.put next .directory).addDirectories next rest

/-- Makes the directories along a path. Nothing is made when the path leads through a file, or is
too long, or a name that it gets to is. -/
def addPath (disk : Disk) (path : String) : Except FileError Unit × Disk :=
  match disk.resolve path with
  | .error .notADirectory => (.error .notADirectory, disk)
  | .error .nameTooLong => (.error .nameTooLong, disk)
  | _ => disk.addDirectories [] (Path.steps path)

end Disk

instance : FileStore (StateM Disk) where
  Handle := Location
  createDirs path := fun disk => disk.addPath path
  create path := fun disk => disk.create path
  write location content := fun disk => (.ok (), disk.put location (.file content))
  contents path := fun disk => (disk.read path, disk)

end ResourceClasses.Files
