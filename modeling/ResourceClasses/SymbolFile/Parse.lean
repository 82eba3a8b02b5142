import ResourceClasses.Field.Symbol
import ResourceClasses.Field.Table
import ResourceClasses.SymbolFile.Token

/-!
Symbol files: one entry for each symbol, `int TYPE NAME VALUE` or `int[] TYPE NAME { VALUES }`.
-/

set_option autoImplicit false

namespace ResourceClasses.SymbolFile

/-- An entry of a symbol file, with the line where it starts. -/
structure Entry where
  line : Nat
  type : ResourceType
  name : String
  value : SymbolValue
  deriving DecidableEq, Repr

/-- The error of finding the given tokens, or the end in the given line, instead of what is
expected. -/
def unexpected {α : Type} (endLine : Nat) (expected : SymbolExpectation) (found : List Lexeme) :
    Except SymbolFileError α :=
  match found with
  | lexeme :: _ => .error (.unexpected lexeme.line expected (some lexeme.token.text))
  | [] => .error (.unexpected endLine expected none)

/-- The value of a numeral, if it has 32 bits; a decimal is read as a number of 64 bits first. -/
def Token.number? : Token → Option (Option Int32)
  | hexadecimal text => some (Text.hexadecimal32 (text.drop 2)).toOption
  | decimal text => some ((Text.decimal64 text).toOption.bind Text.narrow?)
  | _ => none

/-- A value at the front of some tokens, and what follows it. -/
def takeValue (endLine : Nat) (found : List Lexeme) :
    Except SymbolFileError (Int32 × List Lexeme) :=
  match found with
  | [] => unexpected endLine .value []
  | lexeme :: rest =>
    match lexeme.token.number? with
    | some (some value) => .ok (value, rest)
    | some none => .error (.invalidValue lexeme.line lexeme.token.text)
    | none => unexpected endLine .value (lexeme :: rest)

/-- One or more values up to the closing brace behind them, after those that are given with the
last one first. -/
def takeValues (endLine : Nat) (values : List Int32) :
    List Lexeme → Except SymbolFileError (List Int32 × List Lexeme)
  | [] => unexpected endLine .value []
  | lexeme :: rest => do
    let (value, _) ← takeValue endLine (lexeme :: rest)
    match rest with
    | ⟨.comma, _⟩ :: rest => takeValues endLine (value :: values) rest
    | ⟨.closingBrace, _⟩ :: rest => .ok ((value :: values).reverse, rest)
    | rest => unexpected endLine .separator rest

/-- The values between braces at the front of some tokens, and what follows them. -/
def takeArray (endLine : Nat) : List Lexeme → Except SymbolFileError (List Int32 × List Lexeme)
  | ⟨.openingBrace, _⟩ :: ⟨.closingBrace, _⟩ :: rest => .ok ([], rest)
  | ⟨.openingBrace, _⟩ :: rest => takeValues endLine [] rest
  | rest => unexpected endLine .openingBrace rest

/-- A name at the front of some tokens, with its line, and what follows it. -/
def takeName (endLine : Nat) (expected : SymbolExpectation) :
    List Lexeme → Except SymbolFileError ((String × Nat) × List Lexeme)
  | ⟨.name text, line⟩ :: rest => .ok ((String.ofList text, line), rest)
  | rest => unexpected endLine expected rest

/-- A resource type at the front of some tokens, and what follows it. -/
def takeType (endLine : Nat) (found : List Lexeme) :
    Except SymbolFileError (ResourceType × List Lexeme) := do
  let ((name, line), rest) ← takeName endLine .resourceType found
  match ResourceType.ofName? name with
  | some type => .ok (type, rest)
  | none => .error (.unknownType line name)

/-- The type and the name of a symbol whose value is read as given, and what follows it. -/
def takeSymbol (endLine line : Nat)
    (takeSymbolValue : List Lexeme → Except SymbolFileError (SymbolValue × List Lexeme))
    (found : List Lexeme) : Except SymbolFileError (Entry × List Lexeme) := do
  let (type, rest) ← takeType endLine found
  let ((name, _), rest) ← takeName endLine .symbolName rest
  let (value, rest) ← takeSymbolValue rest
  .ok (⟨line, type, name, value⟩, rest)

/-- The entry at the front of some tokens, and what follows it. -/
def takeEntry (endLine : Nat) (found : List Lexeme) :
    Except SymbolFileError (Entry × List Lexeme) :=
  match found with
  | ⟨.int, line⟩ :: rest =>
    takeSymbol endLine line
      (fun rest => do
        let (value, rest) ← takeValue endLine rest
        .ok (.int value, rest))
      rest
  | ⟨.intArray, line⟩ :: rest =>
    takeSymbol endLine line
      (fun rest => do
        let (values, rest) ← takeArray endLine rest
        .ok (.array values, rest))
      rest
  | rest => unexpected endLine .symbolKind rest

/-- One step of reading entries: the next one becomes a field of the table, which must not have
one of the same type and name. -/
def nextEntry (endLine : Nat) (dependency : Option String)
    (state : FieldTable Symbol × List Lexeme) :
    Except SymbolFileError (Step Entry (FieldTable Symbol × List Lexeme)) :=
  let (table, found) := state
  match found with
  | [] => .ok (.done (table, []))
  | lexeme :: rest => do
    let (entry, rest) ← takeEntry endLine (lexeme :: rest)
    if table.contains entry.type entry.name then
      .error (.duplicate entry.line entry.type entry.name)
    else
      .ok (.item entry (table.push entry.type ⟨entry.name, entry.value, dependency⟩, rest))

/-- The symbols of a symbol file, all with the same label of a dependency, if any. -/
def parse (source : String) (dependency : Option String) :
    Except SymbolFileError (FieldTable Symbol) := do
  let chars := source.toList
  let found ← lexemes chars
  let (_, table, _) ←
    collect (fun state => state.2.length) (nextEntry (endLine chars) dependency) (.empty, found)
  .ok table

end ResourceClasses.SymbolFile
