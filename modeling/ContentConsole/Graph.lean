import ContentConsole.Entity.Search
import ContentConsole.Entity.Wire
import ContentConsole.Files
import ContentConsole.Json.Reader
import ContentConsole.Server

set_option autoImplicit false
set_option relaxedAutoImplicit false

/-! A graph of entities in a file, which answers like a server that refuses every change. -/
namespace ContentConsole

structure Graph where
  roots : List Entity
deriving Repr, Inhabited

namespace Graph

def ofJson (j : Json) : Except Json.ShapeError Graph :=
  match j with
  | .arr items => (Entity.readAll items).map Graph.mk
  | single => (Entity.ofJson single).map fun e => ⟨[e]⟩

def ofText (text : String) : Except Fault Graph :=
  match Json.read text with
  | .error e => .error (.ofSyntax text e)
  | .ok j => (ofJson j).mapError .ofShape

def load (fs : Files) (path : String) : Except Fault Graph :=
  match fs.readText path with
  | .error e => .error (.io e.message)
  | .ok text => ofText text

def find (g : Graph) (id : String) : Except Fault Entity :=
  match Entity.findIn? id g.roots with
  | some e => .ok e
  | none => .error (.notFound s!"entity {id}")

private def readOnly : Fault := .transport "the file graph is read-only"

def plainFields (e : Entity) : Record :=
  match e.toJson with
  | .obj fields => fields.filter fun
    | (_, .arr _) => false
    | _ => true
  | _ => []

/-- Only the facet for the node itself has records: one, of the entity's plain fields. -/
def records (g : Graph) (id : String) : Facet → Except Fault (List Record)
  | .all => (g.find id).map fun e => [plainFields e]
  | .incoming | .outgoing | .html => .ok []

def property (g : Graph) (id key : String) : Except Fault Json :=
  (g.find id).map fun e => (e.toJson.get? key).getD .null

/-- Children come from the tree of the graph; nothing is uploaded and nothing confirmed. -/
def answer (g : Graph) : (call : Call) → call.Answer
  | .children id _ => (g.find id).map Entity.children
  | .delete _ => .error readOnly
  | .set .. => .error readOnly
  | .get id key => g.property id key
  | .records id facet _ => g.records id facet
  | .upload _ => .error readOnly
  | .confirm _ => false

def server (g : Graph) : Server Unit := ⟨fun call state => (g.answer call, state)⟩

end Graph

end ContentConsole
