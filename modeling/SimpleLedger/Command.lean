import SimpleLedger.Verdict
import SimpleLedger.Settings
import SimpleLedger.Corpus.Sampling
import SimpleLedger.Failure
import SimpleLedger.Command.Address
import SimpleLedger.Command.Arguments

namespace SimpleLedger.Command

/-- What the program finds around it. `refusal` says why a file of some name cannot be made. -/
structure Surroundings where
  environment : List (String × String)
  file : Option String
  indexer : String → Corpus.Indexer
  refusal : String → Option String

/-- What a run of the program leaves behind. -/
structure Report where
  code : Nat
  output : String
  complaint : Option String
  file : Option (String × String)
  requests : List Corpus.Request
deriving DecidableEq

/-- How a run of the program ends: with a report, or by serving at an address. -/
inductive Ending where
  | finished (report : Report)
  | serving (address : String)
deriving DecidableEq

namespace Report

/-- The report of a run that only writes something. -/
def success (output : String) : Report :=
  { code := 0, output, complaint := none, file := none, requests := [] }

/-- The report of a run that does nothing but fail. -/
def failure (failure : Failure) : Report :=
  { code := 1, output := "", complaint := some failure.message, file := none, requests := [] }

/-- The report of a run that was asked for nothing it knows. -/
def misuse : Report :=
  { code := 2, output := "", complaint := none, file := none, requests := [] }

end Report

/-- The name and version of the program. -/
def versionLine : String :=
  "slp-oracle 0.1.0\n"

/-- How the program is used. -/
def helpText : String :=
  "Usage: slp-oracle <COMMAND>\n\nCommands:\n" ++
  "  serve [--bind ADDR]\n" ++
  "  sample [--base-url URL] [-o FILE] [--narrow-limit N] [--broad-limit N] [--only CATEGORY]\n" ++
  "  decode [--pretty] HEX\n"

/-- The settings, or the failure to load them. -/
def settings (around : Surroundings) : Except Failure Settings :=
  match Settings.load around.file around.environment with
  | .ok settings => .ok settings
  | .error _ => .error (.configuration "Failed to load configuration")

/-- The verdict on a script, on one line or over several. -/
def decode (script : String) (pretty : Bool) : Report :=
  let json := (Verdict.ofHex script).toJson
  .success ((if pretty then json.prettyText else json.compactText) ++ "\n")

/-- The address to serve at. -/
def serve (around : Surroundings) (bind : Option String) : Except Failure String := do
  let settings ← settings around
  let address := bind.getD settings.bind
  if Address.isSocket address.toList then .ok address
  else
    .error (.configuration s!"Invalid bind address '{address}': invalid socket address syntax")

/-- The URL and the steps of a sampling: each setting is what the request says, or else what the
settings say. Only one category is sampled if the request names it. -/
def samplePlan (around : Surroundings) (request : SampleRequest) :
    Except Failure (String × List Corpus.Step) := do
  let settings ← settings around
  let narrow := request.narrowLimit.getD settings.narrowLimit
  let broad := request.broadLimit.getD settings.broadLimit
  if narrow = 0 ∨ broad = 0 then .error (.invalidData "sample limits must be at least 1")
  else
    let plan := Corpus.plan narrow broad
    let plan := match request.only with
      | some category => plan.filter fun step => step.category == category
      | none => plan
    .ok (request.baseUrl.getD settings.baseUrl, plan)

/-- The report of a sampling that was run. What was written before a failure stays written. -/
def sampleReport (output : Option String) (outcome : Corpus.Outcome) : Report :=
  let (code, complaint) := match outcome.result with
    | .ok _ => (0, none)
    | .error error => (1, some (Failure.message (.sampler error)))
  match output with
  | none =>
    { code, output := outcome.sink.written, complaint, file := none, requests := outcome.requests }
  | some name =>
    { code, output := "", complaint, file := some (name, outcome.sink.written),
      requests := outcome.requests }

/-- Samples ids from the indexer. The file is made before the first request. -/
def sample (around : Surroundings) (request : SampleRequest) : Report :=
  match samplePlan around request with
  | .error failure => .failure failure
  | .ok (base, plan) =>
    match request.output.bind around.refusal with
    | some detail => .failure (.io detail)
    | none =>
      sampleReport request.output
        (Corpus.run base plan (around.indexer base).connect { written := "", room := none })

def run (around : Surroundings) (arguments : List String) : Ending :=
  match Task.ofArguments? arguments with
  | none => .finished .misuse
  | some .help => .finished (.success helpText)
  | some .version => .finished (.success versionLine)
  | some (.decode script pretty) => .finished (decode script pretty)
  | some (.serve bind) =>
    match serve around bind with
    | .ok address => .serving address
    | .error failure => .finished (.failure failure)
  | some (.sample request) => .finished (sample around request)

end SimpleLedger.Command
