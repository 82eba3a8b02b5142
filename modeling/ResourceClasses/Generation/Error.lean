import ResourceClasses.ClassFile.Error
import ResourceClasses.Files.Store
import ResourceClasses.Name.Member

/-!
Generation errors: why the classes of a package cannot be generated.
-/

set_option autoImplicit false

namespace ResourceClasses.Generation

/-- Why generation fails; files written before the failure stay. -/
inductive GenerateError
  | invalidName (field className directory : String) (reason : Name.MemberNameError)
  | oversizedInitializer (className field : String)
  | file (path : String) (reason : Files.FileError)
  | format (reason : ClassFile.FormatError)
  | missingLabel
  deriving DecidableEq, Repr

def GenerateError.message : GenerateError → String
  | invalidName field className directory reason =>
    "invalid field name `" ++ field ++ "` in class " ++ className ++ " and package " ++
      directory ++ ": " ++ reason.message
  | oversizedInitializer className field =>
    "field " ++ className ++ "." ++ field ++ " is too big to initialize"
  | file path reason => "cannot write " ++ path ++ ": " ++ reason.message
  | format reason => reason.message
  | missingLabel => "provenance annotations require a label"

end ResourceClasses.Generation
