import SimpleLedger.Json.Written

namespace SimpleLedger.Corpus

open Json (Piece Written)

namespace Body

/-- The value of the only member with a given name, among members whose names are all texts. -/
def only? (name : String) (members : List (List Piece × Written)) : Option Written :=
  if members.all fun member => (Piece.text? member.1).isSome then
    match members.filter fun member => Piece.text? member.1 == some name with
    | [(_, value)] => some value
    | _ => none
  else none

/-- The member of a given name in an object, or the item of an array of one. -/
def field? (name : String) : Written → Option Written
  | .object members => only? name members
  | .array [value] => some value
  | _ => none

def id? (found : Written) : Option String :=
  match field? "txid" found with
  | some (.string pieces) => Piece.text? pieces
  | _ => none

/-- The ids of all matches. -/
def ids? (body : Written) : Option (List String) :=
  match field? "c" body with
  | some (.array matched) => matched.mapM id?
  | _ => none

def ofText? (text : String) : Option (List String) :=
  (Written.ofText? text).bind ids?

end Body

end SimpleLedger.Corpus
