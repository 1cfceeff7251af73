import SimpleLedger.Corpus.Query
import SimpleLedger.Corpus.Body
import SimpleLedger.Corpus.Indexer

namespace SimpleLedger.Corpus

/-- Whether a text is the id of a transaction: 64 hexadecimal digits of either case. -/
def isTxid (text : String) : Bool :=
  text.toList.length == 64 &&
    text.toList.all fun c => c.isDigit || ('a' ≤ c && c ≤ 'f') || ('A' ≤ c && c ≤ 'F')

/-- The first ids of a body, up to a limit. The body must be sound as a whole, but only the ids that
are taken are checked. -/
def idsOfBody (limit : Nat) (body : String) : Except SamplerError (List String) :=
  match Body.ofText? body with
  | none => .error .invalidResponse
  | some ids =>
    (ids.take limit).mapM fun id => if isTxid id then .ok id else .error (.invalidTxid id)

def Step.request (base : String) (step : Step) : Request :=
  { category := step.category, url := (Query.ofCategory step.category step.limit).url base }

/-- Sends the one request of a step, and takes the ids from the body that answers it. -/
def sample (base : String) (step : Step) (connection : Connection) :
    Except SamplerError (List String) × Connection :=
  match connection.fetch (step.request base) with
  | (.ok body, connection) => (idsOfBody step.limit body, connection)
  | (.error e, connection) => (.error e, connection)

/-- Where the ids are written: what has been written, and how many characters more it takes. -/
structure Sink where
  written : String
  room : Option Nat

namespace Sink

/-- Writes as much of a text as there is room for, and says whether that was all of it. -/
def write (text : String) (sink : Sink) : Bool × Sink :=
  match sink.room with
  | none => (true, { sink with written := sink.written ++ text })
  | some room =>
    let size := text.toList.length
    if size ≤ room then (true, { written := sink.written ++ text, room := some (room - size) })
    else
      (false, { written := sink.written ++ String.ofList (text.toList.take room), room := some 0 })

/-- Writes each id on a line of its own, until one does not fit. -/
def writeLines : List String → Sink → Bool × Sink
  | [], sink => (true, sink)
  | id :: ids, sink =>
    match sink.write (id ++ "\n") with
    | (true, sink) => writeLines ids sink
    | (false, sink) => (false, sink)

end Sink

/-- What came of a run: the number of ids, or why it stopped; what was written; the connection. -/
structure Outcome where
  result : Except SamplerError Nat
  sink : Sink
  connection : Connection

def Outcome.requests (outcome : Outcome) : List Request :=
  outcome.connection.sent

/-- The error of a sink without room. -/
def noRoom : SamplerError :=
  .output "failed to write whole buffer"

/-- Takes the steps of a plan in order, and writes the ids of each before the next is taken. -/
def run (base : String) : List Step → Connection → Sink → Outcome
  | [], connection, sink => { result := .ok 0, sink, connection }
  | step :: steps, connection, sink =>
    match sample base step connection with
    | (.error e, connection) => { result := .error e, sink, connection }
    | (.ok ids, connection) =>
      match sink.writeLines ids with
      | (false, sink) => { result := .error noRoom, sink, connection }
      | (true, sink) =>
        let outcome := run base steps connection sink
        { outcome with result := outcome.result.map (ids.length + ·) }

end SimpleLedger.Corpus
