import SimpleLedger.Settings.Environment
import SimpleLedger.Settings.Path
import SimpleLedger.Settings.Toml

namespace SimpleLedger

structure Settings where
  bind : String
  baseUrl : String
  timeoutSeconds : Nat
  narrowLimit : Nat
  broadLimit : Nat
deriving DecidableEq

namespace Settings

/-- The settings where nothing else is said. -/
def default : Settings where
  bind := "0.0.0.0:8078"
  baseUrl := "https://slpdb.fountainhead.cash/q/"
  timeoutSeconds := 60
  narrowLimit := 1
  broadLimit := 10000

/-- Why there are no settings: the file cannot be read, a value is of the wrong type, or what is said
does not fit together. -/
inductive Error where
  | file
  | wrongType (key : String)
  | message (text : String)
deriving DecidableEq

def defaultLayer : Value :=
  .table [
    ("oracle", .table [("bind", .text default.bind)]),
    ("indexer", .table [("base_url", .text default.baseUrl),
      ("timeout_seconds", .int default.timeoutSeconds),
      ("narrow_limit", .int default.narrowLimit),
      ("broad_limit", .int default.broadLimit)])]

/-- A section of settings: its key, what it is called in errors, and the keys in it. -/
structure Section where
  key : String
  title : String
  names : List String

/-- The section of the verdict server. -/
def oracleSection : Section :=
  { key := "oracle", title := "struct OracleConfig", names := ["bind"] }

def indexerSection : Section :=
  { key := "indexer", title := "struct IndexerConfig",
    names := ["base_url", "timeout_seconds", "narrow_limit", "broad_limit"] }

namespace Section

/-- What a value has for each name of a section, under the key by which an error calls it. An array
gives the settings in order. -/
def values (part : Section) (root : Value) : Except Error (List (Option (String × Value))) :=
  match root.entries.lookup part.key with
  | some (.table entries) =>
    .ok (part.names.map fun name =>
      (entries.lookup name).map fun value => (part.key ++ "." ++ name, value))
  | some (.array items) =>
    .ok ((List.range part.names.length).map fun n =>
      items[n]?.map fun value => (s!"{part.key}[{n}]", value))
  | some value =>
    .error (.message s!"invalid type: {value.described}, expected {part.title}")
  | none => .error (.message ("missing field \x60" ++ part.key ++ "\x60"))

/-- What is said of a setting that a section does not have. -/
def missing (part : Section) (root : Value) (n : Nat) : Error :=
  match root.entries.lookup part.key with
  | some (.array _) =>
    let count := part.names.length
    let noun := if count = 1 then "element" else "elements"
    .message s!"invalid length {n}, expected {part.title} with {count} {noun}"
  | _ => .message ("missing field \x60" ++ part.names.getD n "" ++ "\x60")

/-- The setting of a section at a place, given its type, if there is one. -/
def typed {α : Type} (part : Section) (root : Value) (n : Nat) (type : Value → Option α) :
    Except Error (Option α) := do
  match (← part.values root)[n]? with
  | some (some (key, value)) =>
    match type value with
    | some setting => .ok (some setting)
    | none => .error (.wrongType key)
  | _ => .ok none

/-- A setting that a section must have at a place. -/
def need {α : Type} (part : Section) (root : Value) (n : Nat) : Option α → Except Error α
  | some setting => .ok setting
  | none => .error (part.missing root n)

end Section

/-- The settings in a table. A value of the wrong type is found before a missing one. -/
def ofValue (root : Value) : Except Error Settings := do
  let bind ← oracleSection.need root 0 (← oracleSection.typed root 0 Value.text?)
  let baseUrl ← indexerSection.typed root 0 Value.text?
  let timeoutSeconds ← indexerSection.typed root 1 Value.word?
  let narrowLimit ← indexerSection.typed root 2 Value.word?
  let broadLimit ← indexerSection.typed root 3 Value.word?
  let baseUrl ← indexerSection.need root 0 baseUrl
  let timeoutSeconds ← indexerSection.need root 1 timeoutSeconds
  let narrowLimit ← indexerSection.need root 2 narrowLimit
  let broadLimit ← indexerSection.need root 3 broadLimit
  if narrowLimit = 0 ∨ broadLimit = 0 then .error (.message "indexer limits must be at least 1")
  else .ok { bind, baseUrl, timeoutSeconds, narrowLimit, broadLimit }

/-- What the file says: nothing without a file. -/
def ofFile (file : Option String) : Except Error (List (String × Value)) :=
  match file with
  | none => .ok []
  | some text =>
    match Toml.read? text with
    | some value => .ok value.entries
    | none => .error .file

/-- The settings that a file, if there is one, and the environment give. Both are laid together
before they are laid over the defaults, so a value of the file that the environment replaces hides no
default. -/
def load (file : Option String) (environment : List (String × String)) : Except Error Settings := do
  let said ← ofFile file
  let assigned := environment.filterMap fun (label, text) => Environment.entry? label text
  ofValue (defaultLayer.merge (Value.ofNamed (said ++ assigned)))

end Settings

end SimpleLedger
