import ResourceClasses.CommandLine.Usage
import ResourceClasses.SharedId
import ResourceClasses.Text.Numeral

/-!
Commands: `generate` writes the classes of symbol files, and `dump` lists a class file.
-/

set_option autoImplicit false

namespace ResourceClasses.CommandLine

/-- A symbol file with the label of the dependency that it belongs to, if any. -/
structure SymbolSource where
  label : Option String
  path : String
  deriving DecidableEq, Repr

/-- What to generate, and where. -/
structure GenerateRequest where
  symbols : List SymbolSource
  package : String
  outDir : String
  finalFields : Bool
  annotate : Bool
  label : Option String
  sharedId : Option SharedId
  keep : Option String
  verbosity : Nat
  deriving DecidableEq, Repr

/-- Which class file to list. -/
structure DumpRequest where
  path : String
  verbosity : Nat
  deriving DecidableEq, Repr

/-- A command. -/
inductive Command
  | generate (request : GenerateRequest)
  | dump (request : DumpRequest)
  deriving DecidableEq, Repr

def versionText : String := "0.3.3"

def usageText : String :=
  "usage: generate -s [LABEL=]R.TXT... -o DIR [-p PACKAGE] [--final-fields]\n" ++
    "                [--annotate --label LABEL] [--only R.TXT]\n" ++
    "                [--shared-id-class CLASS --package-id ID] [-v...]\n" ++
    "       dump CLASS [-v...]"

def UsageError.message : UsageError → String
  | invalidText reason => "invalid value: " ++ reason
  | missingRequired => "a required option or operand is missing"
  | unknownWord => "unexpected word"
  | invalidValue => "an option or operand needs a value"
  | conflict => "an option is given twice"
  | tooManyValues => "an option that takes no value has one"
  | unknownCommand => "unknown command"
  | help | helpForNothing => usageText
  | version => versionText

def UsageError.isRequest : UsageError → Bool
  | help | version => true
  | _ => false

/-- How much is reported for a given number of requests to report more. -/
def reportLevel (verbosity : Nat) : String :=
  match verbosity with
  | 0 => "warn"
  | 1 => "debug"
  | _ => "trace"

/-- The symbol file of a text, which is its path, or a label, an equals sign and its path. -/
def symbolSource (text : String) : Except UsageError SymbolSource :=
  let (front, rest) := text.toList.span (· ≠ '=')
  let (label, path) :=
    match rest with
    | [] => (none, front)
    | _ :: path => (some (String.ofList front), path)
  if label = some "" then .error (.invalidText "label before '=' is empty")
  else if path.isEmpty then .error (.invalidText "symbol file path is empty")
  else .ok ⟨label, String.ofList path⟩

/-- The number of a package id, in decimal or after 0x in base sixteen. -/
def packageIdNumber (text : List Char) : Except Text.NumeralFault Int32 :=
  match text with
  | '0' :: 'x' :: digits | '0' :: 'X' :: digits => Text.hexadecimal32 digits
  | digits => Text.decimal32 digits

def packageId (text : String) : Except UsageError Int32 :=
  match packageIdNumber text.toList with
  | .ok value => .ok value
  | .error fault =>
    .error (.invalidText ("invalid package id `" ++ text ++ "`: " ++ fault.message))

/-- The path of a text, which must not be empty. -/
def pathValue (text : String) : Except UsageError String :=
  if text.isEmpty then .error .invalidValue else .ok text

/-- The option that asks for help. -/
def helpOption {σ : Type} : Parameter σ where
  name := "help"
  short := some 'h'
  long := some "help"
  arity := .flag
  apply := fun _ _ => .error .help

/-- What is known of a request to generate while its words are read. -/
structure GenerateDraft where
  symbols : List SymbolSource := []
  package : String := ""
  outDir : Option String := none
  finalFields : Bool := false
  annotate : Bool := false
  label : Option String := none
  sharedIdClass : Option String := none
  packageId : Option Int32 := none
  keep : Option String := none
  verbosity : Nat := 0

def generateForm : Form GenerateDraft where
  options :=
    [{ name := "symbols", short := some 's', long := some "symbols", arity := .values
       apply := fun text draft => do
         pure { draft with symbols := draft.symbols ++ [← symbolSource text] } },
      { name := "package", short := some 'p', long := some "package", arity := .value
        apply := fun text draft => pure { draft with package := text } },
      { name := "out", short := some 'o', long := some "out", arity := .value
        apply := fun text draft => do pure { draft with outDir := some (← pathValue text) } },
      { name := "final-fields", long := some "final-fields", arity := .flag
        apply := fun _ draft => pure { draft with finalFields := true } },
      { name := "annotate", long := some "annotate", arity := .flag
        apply := fun _ draft => pure { draft with annotate := true } },
      { name := "label", long := some "label", arity := .value
        apply := fun text draft => pure { draft with label := some text } },
      { name := "shared-id-class", long := some "shared-id-class", arity := .value
        apply := fun text draft => pure { draft with sharedIdClass := some text } },
      { name := "package-id", long := some "package-id", arity := .value
        apply := fun text draft => do pure { draft with packageId := some (← packageId text) } },
      { name := "only", long := some "only", arity := .value
        apply := fun text draft => do pure { draft with keep := some (← pathValue text) } },
      { name := "verbose", short := some 'v', arity := .counter
        apply := fun _ draft => pure { draft with verbosity := draft.verbosity + 1 } },
      helpOption]

/-- The request that a draft amounts to, with a directory and a class for the package id. -/
def GenerateDraft.filled (draft : GenerateDraft) (outDir : String) (sharedId : Option SharedId) :
    GenerateRequest :=
  { symbols := draft.symbols
    package := draft.package
    outDir
    finalFields := draft.finalFields
    annotate := draft.annotate
    label := draft.label
    sharedId
    keep := draft.keep
    verbosity := draft.verbosity }

/-- The request of a draft: it needs symbols and a directory, annotations need a label, and a class
for the package id and the package id need each other. -/
def GenerateDraft.request (draft : GenerateDraft) : Except UsageError GenerateRequest :=
  match draft.outDir with
  | none => .error .missingRequired
  | some outDir =>
    if draft.symbols.isEmpty || (draft.annotate && draft.label.isNone) then
      .error .missingRequired
    else
      match draft.sharedIdClass, draft.packageId with
      | some _, none | none, some _ => .error .missingRequired
      | some className, some packageId => .ok (draft.filled outDir (some ⟨className, packageId⟩))
      | none, none => .ok (draft.filled outDir none)

/-- What is known of a request to list while its words are read. -/
structure DumpDraft where
  path : Option String := none
  verbosity : Nat := 0

def dumpForm : Form DumpDraft where
  options :=
    [{ name := "verbose", short := some 'v', arity := .counter
       apply := fun _ draft => pure { draft with verbosity := draft.verbosity + 1 } },
      helpOption]
  operand := some
    { name := "class", arity := .value
      apply := fun text draft => do pure { draft with path := some (← pathValue text) } }

/-- The request of a draft: it needs a path. -/
def DumpDraft.request (draft : DumpDraft) : Except UsageError DumpRequest :=
  match draft.path with
  | none => .error .missingRequired
  | some path => .ok ⟨path, draft.verbosity⟩

/-- The parameters that stand before a command. -/
def topForm : Form Unit where
  options :=
    [helpOption,
      { name := "version", short := some 'V', long := some "version", arity := .flag
        apply := fun _ _ => .error .version }]

def commandWords : List String := ["generate", "dump", "help"]

/-- The help that is asked for: on one command or on all of them. -/
def helpOn : List String → UsageError
  | [] => .help
  | [topic] => if commandWords.contains topic then .help else .unknownCommand
  | _ => .unknownCommand

def command (words : List String) : Except UsageError Command :=
  match words with
  | [] => .error .helpForNothing
  | "generate" :: rest => do
    pure (.generate (← (← generateForm.read {} rest).request))
  | "dump" :: rest => do pure (.dump (← (← dumpForm.read {} rest).request))
  | "help" :: topics => .error (helpOn topics)
  | ["--"] => .error .helpForNothing
  | "--" :: next :: _ =>
    .error (if commandWords.contains next then .unknownWord else .unknownCommand)
  | first :: _ =>
    match first.toList with
    | '-' :: _ :: _ =>
      match topForm.read () [first] with
      | .error e => .error e
      | .ok () => .error .unknownWord
    | _ => .error .unknownCommand

end ResourceClasses.CommandLine
