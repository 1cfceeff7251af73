import SimpleLedger.Corpus.Category
import SimpleLedger.Text.Blank

namespace SimpleLedger.Corpus

/-- Why a sampling fails. -/
inductive SamplerError where
  | request
  | status (code : Nat) (category : String)
  | invalidResponse
  | invalidTxid (txid : String)
  | output (detail : String)
deriving DecidableEq

namespace SamplerError

def kind : SamplerError → String
  | request => "Request"
  | status _ _ => "Status"
  | invalidResponse => "InvalidResponse"
  | invalidTxid _ => "InvalidTxid"
  | output _ => "Io"

def message : SamplerError → String
  | request => "Indexer request failed"
  | status code category => s!"Indexer returned HTTP {code} for {category}"
  | invalidResponse => "Invalid indexer response"
  | invalidTxid txid => "Invalid txid in indexer response: " ++ txid
  | output detail => "Output error: " ++ detail

end SamplerError

/-- One answer of an indexer: the text of a body, or a status that is no success. -/
inductive Reply where
  | body (text : String)
  | status (code : Nat)
deriving DecidableEq

/-- The answer that an HTTP response gives. A byte order mark does not belong to the text. -/
def Reply.ofResponse (status : Nat) (body : String) : Reply :=
  if 200 ≤ status ∧ status < 300 then .body (String.ofList (Text.withoutMark body.toList))
  else .status status

/-- An indexer: the answers it still has, one for each request, or none that can be reached. -/
inductive Indexer where
  | answering (replies : List Reply)
  | unreachable
deriving DecidableEq

/-- A request for the ids of a category. -/
structure Request where
  category : Category
  url : String
deriving DecidableEq

/-- A connection to an indexer, and the requests that were sent over it. -/
structure Connection where
  indexer : Indexer
  sent : List Request

namespace Indexer

/-- A connection over which nothing was sent yet. -/
def connect (indexer : Indexer) : Connection :=
  { indexer, sent := [] }

/-- The answer to a request for a category. An indexer without any answer left gives status 503. -/
def answer (category : Category) : Indexer → Except SamplerError String × Indexer
  | answering [] => (.error (.status 503 category.name), answering [])
  | answering (.status code :: replies) => (.error (.status code category.name), answering replies)
  | answering (.body text :: replies) => (.ok text, answering replies)
  | unreachable => (.error .request, unreachable)

end Indexer

/-- Sends a request and takes its answer. -/
def Connection.fetch (request : Request) (connection : Connection) :
    Except SamplerError String × Connection :=
  let (answer, indexer) := connection.indexer.answer request.category
  (answer, { indexer, sent := connection.sent ++ [request] })

end SimpleLedger.Corpus
