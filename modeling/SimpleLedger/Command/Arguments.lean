import SimpleLedger.Corpus.Category
import SimpleLedger.Text.Numeral

namespace SimpleLedger.Command

/-- An option of a command: its long name, a letter if it has one, and whether it takes a value. -/
structure OptionSpec where
  long : String
  letter : Option Char
  takesValue : Bool

/-- The options that a command has been given, with their values, and its other arguments. -/
structure Given where
  options : List (String × String)
  others : List String

/-- What arguments ask for, as far as it is known from their form. -/
inductive Form where
  | help
  | version
  | given (arguments : Given)

namespace OptionSpec

def help : OptionSpec :=
  { long := "help", letter := some 'h', takesValue := false }

def version : OptionSpec :=
  { long := "version", letter := some 'V', takesValue := false }

/-- Whether an argument can be the value of the option before it. -/
def isValue (argument : String) : Bool :=
  match argument.toList with
  | '-' :: _ :: _ => false
  | _ => true

/-- What an argument says by its first characters. -/
inductive Shape where
  | separator
  | long (name : String) (value : Option String)
  | letters (letters : List Char)
  | other

def shape (argument : String) : Shape :=
  match argument.toList with
  | ['-', '-'] => .separator
  | '-' :: '-' :: rest =>
    let (name, value) := rest.span fun c => c != '='
    .long (String.ofList name) (if value.isEmpty then none else some (String.ofList (value.drop 1)))
  | '-' :: c :: rest => .letters (c :: rest)
  | _ => .other

/-- The value that follows the letter of an option in the same argument, if any does. -/
def attached? : List Char → Option String
  | [] => none
  | '=' :: rest => some (String.ofList rest)
  | rest => some (String.ofList rest)

/-- Notes an option. No option is given twice. -/
def note? (spec : OptionSpec) (value : String) (given : Given) : Option Given :=
  if (given.options.lookup spec.long).isSome then none
  else some { given with options := given.options ++ [(spec.long, value)] }

/-- What letters of one argument mean: a request that ends the reading, options without values, or
an option whose value is attached or still to come. -/
inductive Letters where
  | form (form : Form)
  | given (arguments : Given)
  | pending (spec : OptionSpec) (arguments : Given)

def readLetters (specs : List OptionSpec) (given : Given) : List Char → Option Letters
  | [] => some (.given given)
  | c :: rest => do
    let spec ← specs.find? fun spec => spec.letter == some c
    if spec.long = help.long then some (.form .help)
    else if spec.long = version.long then some (.form .version)
    else if spec.takesValue then
      match attached? rest with
      | some value => .given <$> note? spec value given
      | none => some (.pending spec given)
    else readLetters specs (← note? spec "" given) rest

/-- Reads arguments; `pending` is an option that waits for its value. After a separator nothing is
an option. -/
def read (specs : List OptionSpec) (pending : Option OptionSpec) (given : Given) :
    List String → Option Form
  | [] => if pending.isSome then none else some (.given given)
  | argument :: rest =>
    match pending with
    | some spec =>
      if isValue argument then do read specs none (← note? spec argument given) rest else none
    | none =>
      match shape argument with
      | .separator => some (.given { given with others := given.others ++ rest })
      | .other => read specs none { given with others := given.others ++ [argument] } rest
      | .letters letters => do
        match ← readLetters specs given letters with
        | .form form => some form
        | .given given => read specs none given rest
        | .pending spec given => read specs (some spec) given rest
      | .long name value => do
        let spec ← specs.find? fun spec => spec.long == name
        match spec.takesValue, value with
        | true, some value => read specs none (← note? spec value given) rest
        | true, none => read specs (some spec) given rest
        | false, some _ => none
        | false, none =>
          if name = help.long then some .help
          else if name = version.long then some .version
          else read specs none (← note? spec "" given) rest

end OptionSpec

structure SampleRequest where
  baseUrl : Option String
  output : Option String
  narrowLimit : Option Nat
  broadLimit : Option Nat
  only : Option Corpus.Category
deriving DecidableEq

/-- What the program is asked to do. -/
inductive Task where
  | help
  | version
  | decode (script : String) (pretty : Bool)
  | serve (bind : Option String)
  | sample (request : SampleRequest)
deriving DecidableEq

namespace Task

/-- The value of an option, if it is given, by a reading that may refuse it. -/
def valueBy? {α : Type} (given : Given) (name : String) (reading : String → Option α) :
    Option (Option α) :=
  match given.options.lookup name with
  | none => some none
  | some value => (reading value).map some

/-- A text that names a file is not empty. -/
def fileName? (text : String) : Option String :=
  if text.isEmpty then none else some text

def decodeOptions : List OptionSpec :=
  [.help, { long := "pretty", letter := none, takesValue := false }]

def serveOptions : List OptionSpec :=
  [.help, { long := "bind", letter := none, takesValue := true }]

def sampleOptions : List OptionSpec :=
  [.help, { long := "base-url", letter := none, takesValue := true },
    { long := "output", letter := some 'o', takesValue := true },
    { long := "narrow-limit", letter := none, takesValue := true },
    { long := "broad-limit", letter := none, takesValue := true },
    { long := "only", letter := none, takesValue := true }]

/-- The arguments of a command by its options, made into a task unless they ask for help. -/
def ofForm? (specs : List OptionSpec) (arguments : List String) (task? : Given → Option Task) :
    Option Task := do
  match ← OptionSpec.read specs none { options := [], others := [] } arguments with
  | .help => some help
  | .version => some version
  | .given given => task? given

/-- Decoding takes one script. -/
def decode? (given : Given) : Option Task :=
  match given.others with
  | [script] => some (decode script (given.options.lookup "pretty").isSome)
  | _ => none

/-- Serving takes options only. -/
def serve? (given : Given) : Option Task :=
  if given.others.isEmpty then some (serve (given.options.lookup "bind")) else none

/-- Sampling takes options only. Limits are whole words and the category is one that exists. -/
def sample? (given : Given) : Option Task := do
  let baseUrl := given.options.lookup "base-url"
  let output ← valueBy? given "output" fileName?
  let narrowLimit ← valueBy? given "narrow-limit" Text.word?
  let broadLimit ← valueBy? given "broad-limit" Text.word?
  let only ← valueBy? given "only" Corpus.Category.ofName?
  if given.others.isEmpty then
    some (sample { baseUrl, output, narrowLimit, broadLimit, only })
  else none

def commands : List String :=
  ["decode", "serve", "sample", "help"]

/-- Help is given for the program or for one command. -/
def help? : List String → Option Task
  | [] => some help
  | [command] => if commands.contains command then some help else none
  | _ => none

/-- What arguments ask for. Without an answer they are misused. -/
def ofArguments? (arguments : List String) : Option Task :=
  match arguments with
  | [] => none
  | argument :: rest =>
    match OptionSpec.shape argument with
    | .other =>
      if argument = "decode" then ofForm? decodeOptions rest decode?
      else if argument = "serve" then ofForm? serveOptions rest serve?
      else if argument = "sample" then ofForm? sampleOptions rest sample?
      else if argument = "help" then help? rest
      else none
    | _ => ofForm? [.help, .version] [argument] fun _ => none

end Task

end SimpleLedger.Command
