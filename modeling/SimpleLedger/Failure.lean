import SimpleLedger.Corpus.Indexer

namespace SimpleLedger

/-- The reasons for which a command fails. -/
inductive Failure where
  | sampler (error : Corpus.SamplerError)
  | io (detail : String)
  | configuration (detail : String)
  | invalidData (detail : String)
deriving DecidableEq

namespace Failure

def kind : Failure → String
  | sampler _ => "Sampler"
  | io _ => "Io"
  | configuration _ => "Config"
  | invalidData _ => "InvalidData"

def message : Failure → String
  | sampler error => "Sampler error: " ++ error.message
  | io detail => "I/O error: " ++ detail
  | configuration detail => "Configuration error: " ++ detail
  | invalidData detail => "Invalid data: " ++ detail

/-- The failure of a text that should have been JSON. -/
def notJson : Failure :=
  invalidData "JSON error"

end Failure

end SimpleLedger
