/-!
Usage: the words of a command are read one by one into what the command asks for.

A value that stands in a word of its own takes effect when the next option or operand starts, or at
the end. So a word that the command does not know is reported even if a value before it is wrong.
-/

set_option autoImplicit false

namespace ResourceClasses.CommandLine

/-- Why words are no command; a request for help or for the version is one of these. -/
inductive UsageError
  | invalidText (reason : String)
  | missingRequired
  | unknownWord
  | invalidValue
  | conflict
  | tooManyValues
  | unknownCommand
  | help
  | version
  | helpForNothing
  deriving DecidableEq, Repr

/-- Whether a parameter takes a value, and whether it may be given more than once. -/
inductive Arity
  | flag
  | counter
  | value
  | values
  deriving DecidableEq, Repr

namespace Arity

def takesValue : Arity → Bool
  | flag | counter => false
  | value | values => true

def repeats : Arity → Bool
  | flag | value => false
  | counter | values => true

end Arity

/-- An option or an operand, and what it does to what the command asks for; an operand has neither a
short nor a long form. -/
structure Parameter (σ : Type) where
  name : String
  short : Option Char := none
  long : Option String := none
  arity : Arity
  apply : String → σ → Except UsageError σ

/-- The parameters of a command. -/
structure Form (σ : Type) where
  options : List (Parameter σ)
  operand : Option (Parameter σ) := none

/-- What is known of a command while its words are read. -/
structure Progress (σ : Type) where
  request : σ
  /-- The names of the parameters that have taken effect. -/
  given : List String := []
  /-- A parameter that has not taken effect yet, with its value once that is known. -/
  pending : Option (Parameter σ × Option String) := none
  operandUsed : Bool := false
  /-- Whether all words that follow are operands. -/
  operandsOnly : Bool := false

namespace Progress

variable {σ : Type}

/-- Lets a parameter take effect. -/
def take (progress : Progress σ) (parameter : Parameter σ) (value : String) :
    Except UsageError (Progress σ) := do
  if progress.given.contains parameter.name && !parameter.arity.repeats then
    throw .conflict
  let request ← parameter.apply value progress.request
  pure { progress with request, given := parameter.name :: progress.given }

/-- Lets the pending parameter take effect, which must have its value. -/
def settle (progress : Progress σ) : Except UsageError (Progress σ) :=
  match progress.pending with
  | none => .ok progress
  | some (_, none) => .error .invalidValue
  | some (parameter, some value) => { progress with pending := none }.take parameter value

/-- Starts an option, with the value that stands in the same word, if any. -/
def start (progress : Progress σ) (option : Parameter σ) (value : Option String) :
    Except UsageError (Progress σ) :=
  match option.arity.takesValue, value with
  | false, some _ => .error .tooManyValues
  | false, none => do (← progress.settle).take option ""
  | true, some value => do (← progress.settle).take option value
  | true, none => do pure { ← progress.settle with pending := some (option, none) }

/-- Reads a word of short options; the last one may have its value in the same word. -/
def shortOptions (form : Form σ) (progress : Progress σ) :
    List Char → Except UsageError (Progress σ)
  | [] => .ok progress
  | c :: rest =>
    match form.options.find? fun option => option.short == some c with
    | none => .error .unknownWord
    | some option =>
      if option.arity.takesValue then
        match rest with
        | [] => progress.start option none
        | '=' :: value => progress.start option (some (String.ofList value))
        | value => progress.start option (some (String.ofList value))
      else do
        let progress ← progress.start option none
        shortOptions form progress rest

/-- Reads a word of a long option; its value may follow an equals sign. -/
def longOption (form : Form σ) (progress : Progress σ) (word : List Char) :
    Except UsageError (Progress σ) :=
  let (name, value) := word.span (· ≠ '=')
  match form.options.find? fun option => option.long == some (String.ofList name) with
  | none => .error .unknownWord
  | some option =>
    progress.start option
      (match value with
        | [] => none
        | _ :: value => some (String.ofList value))

/-- Reads a word that is no option: the value of the pending option or the operand. -/
def plainWord (form : Form σ) (progress : Progress σ) (word : String) :
    Except UsageError (Progress σ) :=
  match progress.pending, progress.operandsOnly with
  | some (option, none), false => .ok { progress with pending := some (option, some word) }
  | _, _ =>
    match form.operand, progress.operandUsed with
    | some operand, false => do
      pure { ← progress.settle with pending := some (operand, some word), operandUsed := true }
    | _, _ => .error .unknownWord

/-- Reads a word of a command. -/
def word (form : Form σ) (progress : Progress σ) (word : String) :
    Except UsageError (Progress σ) :=
  if progress.operandsOnly then progress.plainWord form word
  else
    match word.toList with
    | ['-', '-'] => .ok { progress with operandsOnly := true }
    | '-' :: '-' :: rest => progress.longOption form rest
    | '-' :: c :: rest => progress.shortOptions form (c :: rest)
    | _ => progress.plainWord form word

end Progress

/-- What a command of the given form asks for, starting from what it asks for without words. -/
def Form.read {σ : Type} (form : Form σ) (request : σ) (words : List String) :
    Except UsageError σ := do
  let progress ← words.foldlM (Progress.word form) { request }
  pure (← progress.settle).request

end ResourceClasses.CommandLine
