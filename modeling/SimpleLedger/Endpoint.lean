import SimpleLedger.Bytes.Percent
import SimpleLedger.Verdict

namespace SimpleLedger

/-- An answer to a request: its verdict, unless the method of the request allows no body. -/
structure Answer where
  status : Nat
  contentType : String
  body : Option Verdict

namespace Endpoint

/-- The part of a URI after its scheme, if it has one. -/
def afterScheme? : List Char → Option (List Char)
  | [] => none
  | ':' :: '/' :: '/' :: rest => some rest
  | _ :: rest => afterScheme? rest

/-- The text before the query and the fragment. -/
def beforeQuery (uri : List Char) : List Char :=
  uri.takeWhile fun c => c != '?' && c != '#'

/-- The path of a URI. After a scheme and an authority an empty path is the root, and an authority
that stands alone has no path. -/
def path (uri : List Char) : List Char :=
  match uri with
  | '/' :: _ => beforeQuery uri
  | _ =>
    match afterScheme? uri with
    | none => []
    | some rest =>
      match (beforeQuery rest).dropWhile fun c => c != '/' with
      | [] => ['/']
      | path => path

/-- The verdict on a request that asks for no script. -/
def unexpected : Verdict :=
  .refused "BadRequest" "Expected GET /<hex-encoded-script>"

/-- The verdict on a path segment whose bytes are no text. -/
def unreadable : Verdict :=
  .refused "BadRequest" "Unreadable script path: Invalid URL: Invalid UTF-8 in \x60script\x60"

def ofSegment (segment : List Char) : Verdict :=
  match String.fromUTF8? ⟨(Percent.decode (Text.utf8 segment)).toArray⟩ with
  | some text => Verdict.ofHex text
  | none => unreadable

/-- The verdict on a path: the empty script at the root, the script that a single segment spells, and
nothing else. -/
def ofPath : List Char → Verdict
  | ['/'] => Verdict.ofHex ""
  | '/' :: segment => if segment.contains '/' then unexpected else ofSegment segment
  | _ => unexpected

/-- Whether the answers to a method have no body: only the head is asked for, or a connection, and
what follows the head would be taken for what comes through it. -/
def isBodiless (method : String) : Bool :=
  method == "HEAD" || method == "CONNECT"

def respond (method uri : String) : Answer :=
  let body :=
    if isBodiless method then none
    else if method = "GET" then some (ofPath (path uri.toList))
    else some unexpected
  { status := 200, contentType := "application/json", body }

end Endpoint

end SimpleLedger
