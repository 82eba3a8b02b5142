import ResourceClasses.ResourceType
import ResourceClasses.Text.Quoted

/-!
Symbol file errors: why a text is no symbol file, and in which line.
-/

set_option autoImplicit false

namespace ResourceClasses

/-- What a symbol file has to go on with. -/
inductive SymbolExpectation
  | symbolKind
  | resourceType
  | symbolName
  | openingBrace
  | value
  | separator
  deriving DecidableEq, Repr

def SymbolExpectation.text : SymbolExpectation → String
  | symbolKind => "`int` or `int[]`"
  | resourceType => "a resource type"
  | symbolName => "a symbol name"
  | openingBrace => "`\x7b`"
  | value => "a value"
  | separator => "`,` or `\x7d`"

/-- Why a text is no symbol file; what is found instead of the expected is a token or the end. -/
inductive SymbolFileError
  | unexpectedChar (line : Nat) (ch : Char)
  | unexpected (line : Nat) (expected : SymbolExpectation) (found : Option String)
  | unknownType (line : Nat) (name : String)
  | invalidValue (line : Nat) (text : String)
  | duplicate (line : Nat) (type : ResourceType) (name : String)
  deriving DecidableEq, Repr

namespace SymbolFileError

def line : SymbolFileError → Nat
  | unexpectedChar line _ | unexpected line _ _ | unknownType line _ | invalidValue line _
  | duplicate line _ _ => line

def reason : SymbolFileError → String
  | unexpectedChar _ ch => "unexpected character " ++ Text.quoted (String.singleton ch)
  | unexpected _ expected (some text) => "expected " ++ expected.text ++ ", found `" ++ text ++ "`"
  | unexpected _ expected none => "expected " ++ expected.text ++ ", found end of input"
  | unknownType _ name => ResourceType.unknownMessage name
  | invalidValue _ text => "value " ++ text ++ " does not fit in 32 bits"
  | duplicate _ type name => "duplicate symbol " ++ type.name ++ "/" ++ name

def message (e : SymbolFileError) : String :=
  "line " ++ Nat.repr e.line ++ ": " ++ e.reason

end SymbolFileError

end ResourceClasses
