import ResourceClasses.Path
import ResourceClasses.ResourceType

/-!
Class names: packages are given with dots, class files and directories want slashes.
-/

set_option autoImplicit false

namespace ResourceClasses.Name

def objectClass : String := "java/lang/Object"

/-- The simple name of the class that lists the resource types of a package. -/
def outerSimpleName : String := "R"

def sourceFile : String := "R.java"

/-- The internal form of a dotted name, with slashes for dots. -/
def internal (dotted : String) : String :=
  dotted.map fun c => if c = '.' then '/' else c

/-- The internal name of the outer class of a package; the empty package is the default one. -/
def outer (package : String) : String :=
  if package.isEmpty then outerSimpleName else internal package ++ "/" ++ outerSimpleName

/-- The internal name of the class that holds the fields of a resource type. -/
def inner (outer : String) (type : ResourceType) : String :=
  outer ++ "$" ++ type.name

/-- The directory of a package below a root, one step for each non-empty component. -/
def packageDir (root package : String) : String :=
  (Text.segments '.' package).foldl Path.join root

end ResourceClasses.Name
