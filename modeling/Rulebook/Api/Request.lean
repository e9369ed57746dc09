import Rulebook.Json.Reader
import Rulebook.Path
import Rulebook.Schema.Scalar
import Rulebook.Text.Percent
/-!
# Requests
-/

namespace Rulebook

/-- A request. -/
structure ApiRequest where
  /-- What is to be done. -/
  method : String
  /-- The path, decoded. -/
  path : String
  /-- The query, as it came. -/
  query : String
  /-- The headers, with names in lower case. -/
  headers : List (String × String)
  /-- The body as a text; empty if there is none. -/
  content : String

/-- What the body of a request is. -/
inductive ApiBody where
  /-- There is none. -/
  | absent
  /-- Something that is not declared as JSON. -/
  | bytes
  /-- A JSON value. -/
  | json (v : Value)

/-- Why a body cannot be read. -/
inductive BodyFault where
  /-- It is not JSON from a position on. -/
  | notJson (position : Nat)
  /-- It holds a numeral that is too long. -/
  | tooLong

namespace ApiRequest

/-- The first header of a name. -/
def header? (r : ApiRequest) (name : String) : Option String := r.headers.lookup name

/-- Whether a media type is that of JSON. -/
def isJsonType (mediaType : String) : Bool :=
  let name := (Text.trim ((Path.parts ';' mediaType).headD "")).toLower
  match Path.parts '/' name with
  | [main, sub] => main == "application" && (sub == "json" || sub.endsWith "+json")
  | _ => false

/-- The text without a byte order mark at its start. -/
def withoutMark (cs : List Char) : List Char :=
  match cs with
  | '\ufeff' :: r => r
  | cs => cs

/-- Reads the body. Only what is declared as JSON is read as JSON. -/
def body (r : ApiRequest) : Except BodyFault ApiBody :=
  if r.content.isEmpty then .ok .absent
  else if !isJsonType ((r.header? "content-type").getD "") then .ok .bytes
  else
    match Json.readChars (withoutMark r.content.toList) with
    | .ok v => .ok (.json v)
    | .error ⟨.tooManyDigits _, _⟩ => .error .tooLong
    | .error e => .error (.notJson e.position)

/-- The named texts of a query: pairs with an equals sign, joined by ampersands, where a plus sign is
a space. A name alone has an empty text; pairs that are empty do not count. -/
def queryPairs (query : String) : List (String × String) :=
  let decode (cs : List Char) : String :=
    Text.percentDecode (String.ofList (cs.map fun c => if c == '+' then ' ' else c))
  ((Path.splitAt '&' query.toList).filter (!·.isEmpty)).map fun pair =>
    (decode (pair.takeWhile (· != '=')), decode ((pair.dropWhile (· != '=')).drop 1))

/-- The fields of the query; of several with one name the last counts. -/
def queryFields (r : ApiRequest) : Fields :=
  Fields.ofPairs ((queryPairs (Text.byteChars r.query)).map fun (k, v) => (k, .text v))

/-- The path as it is shown: without what would read as a query or a fragment, and without tabs and
line ends. -/
def shownPath (r : ApiRequest) : String :=
  let isCut (c : Char) : Bool := c == '?' || c == '#'
  let isGap (c : Char) : Bool := c == '\t' || c == '\n' || c == '\r'
  String.ofList ((r.path.toList.filter (!isGap ·)).takeWhile (!isCut ·))

end ApiRequest

end Rulebook
