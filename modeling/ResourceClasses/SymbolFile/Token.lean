import ResourceClasses.Collect
import ResourceClasses.SymbolFile.Error
import ResourceClasses.Text.Numeral

/-!
Tokens of symbol files: words, numerals and punctuation, each as long as possible.
-/

set_option autoImplicit false

namespace ResourceClasses.SymbolFile

/-- A token; numerals and names keep their text. -/
inductive Token
  | int
  | intArray
  | openingBrace
  | closingBrace
  | comma
  | hexadecimal (text : List Char)
  | decimal (text : List Char)
  | name (text : List Char)
  deriving DecidableEq, Repr

namespace Token

def chars : Token → List Char
  | int => "int".toList
  | intArray => "int[]".toList
  | openingBrace => ['\x7b']
  | closingBrace => ['\x7d']
  | comma => [',']
  | hexadecimal text | decimal text | name text => text

def text (token : Token) : String :=
  String.ofList token.chars

/-- Whether a character separates tokens without being part of one. -/
def isBlank (c : Char) : Bool :=
  c == ' ' || c == '\t' || c == '\r' || c == '\n'

def isWordStart (c : Char) : Bool :=
  ('A' ≤ c && c ≤ 'Z') || ('a' ≤ c && c ≤ 'z') || c == '_' || c == '$'

/-- Whether a character can stand in a word after its start. -/
def isWordPart (c : Char) : Bool :=
  !isBlank c && c != '\x7b' && c != '\x7d' && c != ','

def ofWord (word : List Char) : Token :=
  if word = int.chars then int else if word = intArray.chars then intArray else name word

/-- The digits of base sixteen after the marker of that base, if there are any. -/
def afterMarker? : List Char → Option (List Char × List Char)
  | '0' :: marker :: rest =>
    if marker = 'x' ∨ marker = 'X' then
      match rest.span (Text.isDigit 16) with
      | ([], _) => none
      | (digits, rest) => some ('0' :: marker :: digits, rest)
    else none
  | _ => none

/-- The longest token at the front of a text that starts with no blank, and what follows it. -/
def first? : List Char → Option (Token × List Char)
  | [] => none
  | c :: rest =>
    if c = '\x7b' then some (openingBrace, rest)
    else if c = '\x7d' then some (closingBrace, rest)
    else if c = ',' then some (comma, rest)
    else if isWordStart c then
      let (part, rest) := rest.span isWordPart
      some (ofWord (c :: part), rest)
    else if c = '-' then
      match rest.span (Text.isDigit 10) with
      | ([], _) => none
      | (digits, rest) => some (decimal ('-' :: digits), rest)
    else
      match afterMarker? (c :: rest) with
      | some (numeral, rest) => some (hexadecimal numeral, rest)
      | none =>
        match (c :: rest).span (Text.isDigit 10) with
        | ([], _) => none
        | (digits, rest) => some (decimal digits, rest)

end Token

/-- A token with its line. -/
structure Lexeme where
  token : Token
  line : Nat
  deriving DecidableEq, Repr

/-- What is left of a text after its blanks, with its line, when the text starts in a given line. -/
def skipBlanks : Nat → List Char → Nat × List Char
  | line, [] => (line, [])
  | line, c :: rest =>
    if c = '\n' then skipBlanks (line + 1) rest
    else if Token.isBlank c then skipBlanks line rest
    else (line, c :: rest)

/-- One step of reading tokens: the next one, or the end of the text. -/
def nextLexeme (state : Nat × List Char) :
    Except SymbolFileError (Step Lexeme (Nat × List Char)) :=
  match skipBlanks state.1 state.2 with
  | (line, []) => .ok (.done (line, []))
  | (line, c :: rest) =>
    match Token.first? (c :: rest) with
    | some (token, rest) => .ok (.item ⟨token, line⟩ (line, rest))
    | none => .error (.unexpectedChar line c)

def lexemes (source : List Char) : Except SymbolFileError (List Lexeme) := do
  let (found, _) ← collect (fun state => state.2.length) nextLexeme (1, source)
  .ok found

def endLine (source : List Char) : Nat :=
  source.count '\n' + 1

end ResourceClasses.SymbolFile
