import SimpleLedger.Json.Token

namespace SimpleLedger.Json

/-- A value as written: numbers keep their digits, strings their escapes, and objects every member. -/
inductive Written where
  | null
  | bool (value : Bool)
  | number (value : Decimal) (whole : Bool)
  | string (pieces : List Piece)
  | array (items : List Written)
  | object (members : List (List Piece × Written))

/-- An open container around the value that is being read: an array with its items so far, or an
object with its members so far and the name of the next. The last comes first. -/
inductive Frame where
  | array (items : List Written)
  | object (members : List (List Piece × Written)) (name : List Piece)

/-- What may come next, and the containers that are open. -/
inductive Reading where
  /-- A value must come. -/
  | atValue (outer : List Frame)
  /-- A value or the end of an array must come. -/
  | atFirstItem (outer : List Frame)
  /-- A name or the end of an object must come. -/
  | atFirstName (outer : List Frame)
  /-- A name must come. -/
  | atName (members : List (List Piece × Written)) (outer : List Frame)
  /-- A colon must come. -/
  | atColon (members : List (List Piece × Written)) (name : List Piece) (outer : List Frame)
  /-- A comma or the end of an array must come. -/
  | afterItem (items : List Written) (outer : List Frame)
  /-- A comma or the end of an object must come. -/
  | afterMember (members : List (List Piece × Written)) (outer : List Frame)
  /-- Nothing may come. -/
  | done (value : Written)

namespace Reading

/-- What may come after a whole value. -/
def after (value : Written) : List Frame → Reading
  | [] => done value
  | .array items :: outer => afterItem (value :: items) outer
  | .object members name :: outer => afterMember ((name, value) :: members) outer

/-- Takes the first token of a value. -/
def start (outer : List Frame) : Token → Option Reading
  | .null => some (after .null outer)
  | .bool b => some (after (.bool b) outer)
  | .number n whole => some (after (.number n whole) outer)
  | .string pieces => some (after (.string pieces) outer)
  | .openBracket => some (atFirstItem outer)
  | .openBrace => some (atFirstName outer)
  | _ => none

/-- Takes one token. -/
def step : Reading → Token → Option Reading
  | atValue outer, token => start outer token
  | atFirstItem outer, .closeBracket => some (after (.array []) outer)
  | atFirstItem outer, token => start (.array [] :: outer) token
  | atFirstName outer, .closeBrace => some (after (.object []) outer)
  | atFirstName outer, .string name => some (atColon [] name outer)
  | atName members outer, .string name => some (atColon members name outer)
  | atColon members name outer, .colon => some (atValue (.object members name :: outer))
  | afterItem items outer, .comma => some (atValue (.array items :: outer))
  | afterItem items outer, .closeBracket => some (after (.array items.reverse) outer)
  | afterMember members outer, .comma => some (atName members outer)
  | afterMember members outer, .closeBrace => some (after (.object members.reverse) outer)
  | _, _ => none

/-- Takes tokens one after the other. -/
def steps : Reading → List Token → Option Reading
  | reading, [] => some reading
  | reading, token :: tokens =>
    match step reading token with
    | some reading => steps reading tokens
    | none => none

end Reading

/-- The value that tokens spell, if they spell exactly one. -/
def Written.ofTokens? (tokens : List Token) : Option Written :=
  match Reading.steps (.atValue []) tokens with
  | some (.done value) => some value
  | _ => none

/-- The value that a text spells. -/
def Written.ofText? (text : String) : Option Written :=
  (Token.all? text.toList).bind ofTokens?

end SimpleLedger.Json
