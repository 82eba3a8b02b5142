import ResourceClasses.Text.Alphabetic
import ResourceClasses.Text.Numeric
import ResourceClasses.Text.Quoted

/-!
Member names: the names that a source program can use for a field. A name starts with a letter, an
underscore or a dollar sign, goes on with those and with numbers, and is no reserved word.
-/

set_option autoImplicit false

namespace ResourceClasses.Name

/-- Words that can never name a member. -/
def reservedWords : List String :=
  ["abstract", "assert", "boolean", "break", "byte", "case", "catch", "char", "class", "const",
    "continue", "default", "do", "double", "else", "enum", "extends", "false", "final", "finally",
    "float", "for", "goto", "if", "implements", "import", "instanceof", "int", "interface", "long",
    "native", "new", "null", "package", "private", "protected", "public", "return", "short",
    "static", "strictfp", "super", "switch", "synchronized", "this", "throw", "throws",
    "transient", "true", "try", "void", "volatile", "while"]

/-- Why a name cannot name a member. -/
inductive MemberNameError
  | empty
  | reserved (name : String)
  | invalidStart (name : String) (ch : Char)
  | invalidChar (name : String) (ch : Char) (index : Nat)
  deriving DecidableEq, Repr

def MemberNameError.message : MemberNameError → String
  | empty => "identifier is empty"
  | reserved name => "`" ++ name ++ "` is a reserved Java keyword"
  | invalidStart name ch => "`" ++ name ++ "` cannot start with " ++ Text.quotedChar ch
  | invalidChar name ch index =>
    "`" ++ name ++ "` contains illegal character " ++ Text.quotedChar ch ++ " at position " ++
      Nat.repr index

def isMemberStart (c : Char) : Bool :=
  Text.isAlphabetic c || c == '_' || c == '$'

/-- Whether a character can stand in a member name after its start. -/
def isMemberPart (c : Char) : Bool :=
  isMemberStart c || Text.isNumeric c

/-- Accepts the names that can name a member. -/
def checkMember (name : String) : Except MemberNameError Unit :=
  match name.toList with
  | [] => .error .empty
  | first :: others =>
    if !isMemberStart first then .error (.invalidStart name first)
    else
      match (others.zipIdx 1).find? fun (c, _) => !isMemberPart c with
      | some (c, index) => .error (.invalidChar name c index)
      | none => if reservedWords.contains name then .error (.reserved name) else .ok ()

end ResourceClasses.Name
