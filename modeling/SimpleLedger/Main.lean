import SimpleLedger.Command
import SimpleLedger.Endpoint

namespace SimpleLedger

/-- A line cut at its first space. -/
def cutLine (line : String) : String × String :=
  let (first, rest) := line.toList.span fun c => c != ' '
  (String.ofList first, String.ofList (rest.drop 1))

def linesOf (text : String) : List String :=
  (text.splitOn "\n").filter fun line => !line.isEmpty

/-- The reply that a line gives. -/
def replyOfLine (line : String) : Corpus.Reply :=
  let (status, body) := cutLine line
  .ofResponse ((Text.natural? status.toList).getD 0) body

/-- The answer to a line with a method and a URI. -/
def answerLine (line : String) : String :=
  let (method, uri) := cutLine line
  match (Endpoint.respond method uri).body with
  | some verdict => verdict.toJson.compactText
  | none => ""

/-- The names and values of an environment whose entries end in null characters. -/
def assignments (block : String) : List (String × String) :=
  (block.splitOn "\x00").filterMap fun entry =>
    let (name, value) := entry.toList.span fun c => c != '='
    if name.isEmpty then none else some (String.ofList name, String.ofList (value.drop 1))

/-- The text of a file, if it can be read. -/
def textOfFile? (name : String) : IO (Option String) := do
  try
    return some (← IO.FS.readFile name)
  catch _ =>
    return none

/-- Answers the requests on standard input until it ends. -/
partial def answerAll (input output : IO.FS.Stream) : IO Unit := do
  let line ← input.getLine
  if line.isEmpty then return
  output.putStrLn (answerLine (String.ofList (line.toList.filter fun c => c != '\n')))
  output.flush
  answerAll input output

/-- What the program finds around it when it is started with some arguments. -/
def surroundings (arguments : List String) : IO Command.Surroundings := do
  let environment := assignments ((← textOfFile? "/proc/self/environ").getD "")
  let file ← textOfFile? "slp-oracle.toml"
  let replies ← match Command.Task.ofArguments? arguments with
    | some (.sample _) => linesOf <$> (do (← IO.getStdin).readToEnd)
    | _ => pure []
  return {
    environment
    file
    indexer := fun _ => .answering (replies.map replyOfLine)
    refusal := fun _ => none }

/-- Complains on standard error. -/
def complain (complaint : String) : IO Unit :=
  IO.eprintln s!"Error: {complaint}"

/-- Writes out a report, and gives its exit code. A file that cannot be made is a failure. -/
def publish (report : Command.Report) : IO UInt32 := do
  IO.print report.output
  try
    if let some (name, content) := report.file then IO.FS.writeFile name content
    if let some complaint := report.complaint then complain complaint
    return UInt32.ofNat report.code
  catch error =>
    complain (Failure.message (.io (toString error)))
    return 1

end SimpleLedger

open SimpleLedger in
/-- Runs the program with its arguments. -/
def main (arguments : List String) : IO UInt32 := do
  match Command.run (← surroundings arguments) arguments with
  | .finished report => publish report
  | .serving _ =>
    answerAll (← IO.getStdin) (← IO.getStdout)
    return 0
