import ContentConsole.Entity.Wire
import ContentConsole.Http
import ContentConsole.Inspector.Facet
import ContentConsole.Json.Reader
import ContentConsole.Settings
import ContentConsole.Url.Reader

set_option autoImplicit false
set_option relaxedAutoImplicit false

/-!
The requests that the console makes. An entity lives at the root followed by its id; its children
and facets live below it. Answers come in an envelope, an object with the field `result`, which
holds one item or an array of them.
-/
namespace ContentConsole

structure RestClient where
  /-- The root of the entities, with a slash at its end. -/
  root : Url
  sessionHeader : String
  sessionToken : Option String
deriving DecidableEq, Repr

namespace RestClient

open Http (Method Request Response)

private def urlFault (e : Url.ReadError) : Fault := .configuration s!"invalid URL: {e.message}"

def ofSettings (s : ServerSettings) : Except Fault RestClient :=
  match Url.read (Text.trim s.rootUrl) with
  | .error e => .error (urlFault e)
  | .ok root => .ok ⟨root.withSlash, s.sessionHeader, s.sessionToken⟩

def urlOf (c : RestClient) (id : String) (part : Option String) : Except Fault Url :=
  let relative :=
    match part with
    | some part => s!"{id}/{part}"
    | none => id
  (c.root.join relative).mapError urlFault

def sessionHeaders (c : RestClient) : List (String × String) :=
  match c.sessionToken with
  | some token => [(Text.lowerAscii c.sessionHeader, token)]
  | none => []

private def jsonType : String × String := ("content-type", "application/json")

/-- A request without the user that its URL may name; a body is JSON
unless the headers say otherwise. -/
def request (c : RestClient) (method : Method) (url : Url) (body : Option Json) : Request :=
  let headers := c.sessionHeaders
  let typed := body.isSome && !headers.any fun h => h.1 = jsonType.1
  ⟨method, url.withoutUser, if typed then headers ++ [jsonType] else headers, body.map Json.compact⟩

/-! ## Requests -/

def childrenRequest (c : RestClient) (id : String)
    (resourceId : Option String) : Except Fault Request :=
  (c.urlOf id (some "children")).map fun url =>
    let url :=
      match resourceId with
      | some resource => url.addQuery "resourceId" resource
      | none => url
    c.request .get url none

def deleteRequest (c : RestClient) (id : String) : Except Fault Request :=
  (c.urlOf id none).map fun url => c.request .delete url none

def setRequest (c : RestClient) (id key : String) (value : Json) : Except Fault Request :=
  (c.urlOf id none).map fun url => c.request .put url (some (.obj [(key, value)]))

def getRequest (c : RestClient) (id : String) : Except Fault Request :=
  (c.urlOf id none).map fun url => c.request .get url none

def recordsRequest (c : RestClient) (id : String) (facet : Facet)
    (pageSize : Nat) : Except Fault Request :=
  (c.urlOf id (some facet.segment)).map fun url =>
    c.request .get (url.addQuery "pageSize" (toString (max pageSize 1))) none

/-! ## Responses -/

def items (envelope : Json) : Except Fault (List Json) :=
  match envelope with
  | .obj fields =>
    match Record.get? fields "result" with
    | some (.arr items) => .ok items
    | some .null => .ok []
    | some item => .ok [item]
    | none => .error (.malformedResponse "missing 'result' field")
  | _ => .error (.malformedResponse "expected a JSON object envelope")

def asRecord (item : Json) : Except Fault Record :=
  match item with
  | .obj fields => .ok fields
  | other => .error (.malformedResponse s!"expected a record object, got {other.compact}")

def asEntity (item : Json) : Except Fault Entity :=
  (Entity.ofJson item).mapError fun e => .malformedResponse s!"bad entity: {e.message}"

private def readBody (body : String) : Except Fault Json :=
  (Json.read body).mapError fun e =>
    .malformedResponse s!"error decoding response body: {e.message body.toList}"

def accepted (url : Url) (r : Response) : Except Fault Response :=
  if r.isSuccess then .ok r else .error (.status r.status url.text)

def itemsOf (url : Url) (r : Response) : Except Fault (List Json) := do
  let r ← accepted url r
  items (← readBody r.body)

def childrenOf (url : Url) (r : Response) : Except Fault (List Entity) := do
  (← itemsOf url r).mapM asEntity

/-- What is not found was there nothing to delete of. -/
def deletionOf (url : Url) (r : Response) : Except Fault Bool :=
  if r.isSuccess then .ok true
  else if r.status = 404 then .ok false
  else .error (.status r.status url.text)

def propertyOf (url : Url) (key : String) (r : Response) : Except Fault Json := do
  match ← itemsOf url r with
  | [] => return .null
  | first :: _ => return (Record.get? (← asRecord first) key).getD .null

def recordsOf (url : Url) (r : Response) : Except Fault (List Record) := do
  (← itemsOf url r).mapM asRecord

end RestClient

end ContentConsole
