import ContentConsole.Json.Shape
import ContentConsole.Json.Reader

set_option autoImplicit false
set_option relaxedAutoImplicit false

/-!
What can go wrong in the console. An action that is disabled is no fault: it answers that nothing
happened.
-/
namespace ContentConsole

/-- Handles number the nodes of an outline in the order they were made. -/
abbrev Handle := Nat

inductive Fault
  /-- A request was not answered. -/
  | transport (detail : String)
  /-- The server refused a request. -/
  | status (code : Nat) (url : String)
  | malformedResponse (detail : String)
  | unknownNode (handle : Handle)
  | notFound (what : String)
  | configuration (detail : String)
  | upload (entityId reason : String)
  | io (detail : String)
  | serialization (detail : String)
deriving DecidableEq, Repr, Inhabited

namespace Fault

def message : Fault → String
  | .transport detail => s!"Transport error: {detail}"
  | .status code url => s!"Server returned {code} for {url}"
  | .malformedResponse detail => s!"Malformed response: {detail}"
  | .unknownNode handle => s!"Unknown node handle: NodeHandle({handle})"
  | .notFound what => s!"Not found: {what}"
  | .configuration detail => s!"Configuration error: {detail}"
  | .upload entityId reason => s!"Upload of {entityId} failed: {reason}"
  | .io detail => s!"IO error: {detail}"
  | .serialization detail => s!"Serialization error: {detail}"

def ofShape (e : Json.ShapeError) : Fault := .serialization e.message

def ofSyntax (text : String) (e : Json.SyntaxError) : Fault :=
  .serialization (e.message text.toList)

/-- The fault of an upload that failed: an upload's own fault stays,
any other becomes its reason. -/
def ofUpload (entityId : String) : Fault → Fault
  | .upload entityId reason => .upload entityId reason
  | e => .upload entityId e.message

end Fault

end ContentConsole
