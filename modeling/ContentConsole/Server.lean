import ContentConsole.Entity.Basic
import ContentConsole.Fault
import ContentConsole.Inspector.Facet

set_option autoImplicit false
set_option relaxedAutoImplicit false

/-!
What the console asks of the outside world: the server that keeps the entities, the store for
uploads and the user. Each call names the type of its answer.
-/
namespace ContentConsole

inductive Call
  /-- The children of an entity as seen below a resource. -/
  | children (id : String) (resourceId : Option String)
  | delete (id : String)
  | set (id key : String) (value : Json)
  | get (id key : String)
  | records (id : String) (facet : Facet) (pageSize : Nat)
  | upload (entity : Entity)
  | confirm (prompt : String)
deriving Repr

/-- A deletion answers whether there was anything to delete; an absent property is `null`. -/
abbrev Call.Answer : Call → Type
  | .children .. => Except Fault (List Entity)
  | .delete _ => Except Fault Bool
  | .set .. | .upload _ => Except Fault Unit
  | .get .. => Except Fault Json
  | .records .. => Except Fault (List Record)
  | .confirm _ => Bool

/-- Answers every call, in a state of its own. -/
structure Server (σ : Type) where
  answer : (call : Call) → σ → call.Answer × σ

end ContentConsole
