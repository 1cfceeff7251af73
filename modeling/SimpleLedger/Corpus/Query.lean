import SimpleLedger.Corpus.Category
import SimpleLedger.Bytes.Base64
import SimpleLedger.Text.Blank

namespace SimpleLedger.Corpus

/-- A query: what to find, and how many results are wanted at most. -/
structure Query where
  find : Json
  limit : Nat

namespace Query

def ofCategory (category : Category) (limit : Nat) : Query :=
  { find := category.find, limit }

/-- How the indexer is to reduce each match to its id. -/
def projection : String :=
  "[ .[] | \x7b txid: .tx.h \x7d ]"

/-- The document of a query, with all members in the order of their names. -/
def document (query : Query) : Json :=
  .sorted (.obj [("v", .nat 3),
    ("q", .obj [("db", .arr [.str "c"]), ("find", query.find), ("project", .obj [("tx.h", .nat 1)]),
      ("limit", .nat query.limit)]),
    ("r", .obj [("f", .str projection)])])

/-- The document of a query in base64. -/
def encoded (query : Query) : String :=
  Base64.encode (Text.utf8 query.document.compact)

def url (query : Query) (base : String) : String :=
  base ++ query.encoded

end Query

end SimpleLedger.Corpus
