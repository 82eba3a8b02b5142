import ResourceClasses.Text.Segments

/-!
Paths as text: steps separated by slashes, where a leading slash starts at the root.
-/

set_option autoImplicit false

namespace ResourceClasses.Path

/-- Continues a path by another one, which replaces it when it starts at the root. -/
def join (base next : String) : String :=
  if next.startsWith '/' then next
  else if base.isEmpty || base.endsWith '/' then base ++ next
  else base ++ "/" ++ next

def stay : String := "."

def back : String := ".."

def steps (path : String) : List String :=
  Text.segments '/' path

/-- Drops slashes, and steps that stay in place, from a path that is written backwards. -/
def dropStays : List Char → List Char
  | '/' :: above => dropStays above
  | '.' :: '/' :: above => dropStays above
  | kept => kept

/-- The directory of a path that ends in a name: what stands before that name without the slashes
and the steps that stay in place at its end, the root if nothing is left. -/
def directory (path : String) : String :=
  let above := path.toList.reverse.dropWhile (· ≠ '/')
  let kept := dropStays above
  String.ofList (if kept.isEmpty && !above.isEmpty then ['/'] else kept.reverse)

end ResourceClasses.Path
