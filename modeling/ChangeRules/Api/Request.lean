import ChangeRules.Text.Blank
import ChangeRules.Text.Find
import ChangeRules.Text.Percent
import ChangeRules.Value.Basic

/-!
# Requests

What a client asks of the service: a method, a path, arguments behind a question mark, headers, and
a body in bytes.

* `Api.Request.ofTarget`: a request whose path and arguments are still escaped.
* `Api.Request.header?`: a header, whose name may be written in any case.
* `Api.Request.isJson`: whether the body is declared to be JSON.
-/

namespace ChangeRules.Api

open Text

/-- A request. -/
structure Request where
  method : String
  path : String
  /-- The arguments; of several with one name the last one counts. -/
  arguments : Fields := []
  headers : List (String × String) := []
  body : List Nat := []

/-! ## Targets -/

/-- The text in front of a character, and the one behind it where it first occurs. -/
def cut (separator : Char) (cs : List Char) : List Char × List Char :=
  let before := cs.takeWhile (· != separator)
  (before, cs.drop (before.length + 1))

/-- A name or a value among arguments: a plus sign is a blank. -/
def argumentText (cs : List Char) : String :=
  Percent.decode (String.ofList (cs.map fun c => if c = '+' then ' ' else c))

/-- A text whose characters beyond ASCII are read byte by byte, each byte as a character. -/
def bytewise (cs : List Char) : List Char :=
  cs.flatMap fun c => (Percent.characterBytes c).map Char.ofNat

/-- The arguments that are written behind a question mark. What is beyond ASCII there should be
escaped; if it is not, each of its bytes is a character. -/
def argumentsOf (cs : List Char) : Fields :=
  Fields.ofPairs (((splitAt '&' (bytewise cs)).filter (!·.isEmpty)).map fun piece =>
    let (name, value) := cut '=' piece
    (argumentText name, .text (argumentText value)))

namespace Request

/-- A request for an escaped path with arguments. -/
def ofTarget (method target : String) (headers : List (String × String)) (body : List Nat) :
    Request :=
  let (path, arguments) := cut '?' target.toList
  { method, headers, body
    path := Percent.decode (String.ofList path)
    arguments := argumentsOf arguments }

/-! ## Headers -/

/-- A text in small letters, as far as it is ASCII. -/
def lowered (s : String) : String := String.ofList (s.toList.map Char.toLower)

/-- The first header of a name. -/
def header? (name : String) (r : Request) : Option String :=
  (r.headers.find? fun h => lowered h.1 == lowered name).map (·.2)

/-- What is declared in front of the parameters of a content type. -/
def mediaType (declared : String) : String :=
  lowered (String.ofList (trimChars (cut ';' declared.toList).1))

/-- Whether the body is declared to be JSON, or of a kind that is written in it. -/
def isJson (r : Request) : Bool :=
  match pieces '/' (mediaType ((r.header? "content-type").getD "")) with
  | ["application", kind] => kind == "json" || endsWith kind "+json"
  | _ => false

/-! ## Paths -/

/-- The path by which requests are counted. -/
def endpoint (r : Request) : String :=
  String.ofList ((r.path.toList.filter fun c => c != '\t' && c != '\r' && c != '\n').takeWhile
    fun c => c != '?' && c != '#')

theorem body_ofTarget (method target : String) (headers : List (String × String))
    (body : List Nat) : (ofTarget method target headers body).body = body := rfl

end Request

end ChangeRules.Api
