import CueCheck.Charset.Utf8
import CueCheck.Json.Value

/-!
The requests that the service receives and the responses that it gives.
-/

namespace CueCheck.Service

/-- The value of a field of a form. -/
inductive FormValue where
  | text (value : Text)
  | file (filename : Text) (data : Bytes)
deriving DecidableEq, Repr

/-- The body of a request. -/
inductive Body where
  | empty
  | json (value : Json)
  | form (fields : List (Text × FormValue))
deriving Repr

structure Request where
  method : Text
  path : Text
  headers : List (Text × Text) := []
  body : Body := .empty
deriving Repr

/-- The value of a header whatever the case of its name. -/
def Request.header? (request : Request) (name : String) : Option Text :=
  (request.headers.find? fun h => h.1.map Char.toLower == name.toList).map (·.2)

/-- The content of a response. -/
inductive Content where
  | json (value : Json)
  | bytes (data : Bytes)
deriving Repr

/-- How many bytes a content takes. -/
def Content.size : Content → Nat
  | json value => (Utf8.encode (Json.render value)).length
  | bytes data => data.length

structure Response where
  status : Nat
  contentType : Option Text
  content : Content
  disposition : Option Text := none
  compressed : Bool := false
  allowedOrigin : Option Text := none
  exposedHeaders : Option Text := none
deriving Repr

namespace Response

def json (status : Nat) (value : Json) : Response where
  status
  contentType := some "application/json".toList
  content := .json value

/-- A response that explains itself in the field `detail`. -/
def detail (status : Nat) (explanation : Json) : Response :=
  json status (.obj [("detail", explanation)])

def plain (status : Nat) (text : Text) : Response where
  status
  contentType := some "text/plain; charset=utf-8".toList
  content := .bytes (Utf8.encode text)

/-- A response that sends the client to another address. -/
def redirect : Response where
  status := 307
  contentType := none
  content := .bytes []

/-- The headers of a response that depend on the request. -/
def headers (r : Response) : List (String × Text) :=
  let given (name : String) (value : Option Text) := (value.map fun v => (name, v)).toList
  given "content-type" r.contentType ++ given "content-disposition" r.disposition ++
    given "content-encoding" (if r.compressed then some "gzip".toList else none) ++
    given "access-control-allow-origin" r.allowedOrigin ++
    given "access-control-expose-headers" r.exposedHeaders

end Response

end CueCheck.Service
