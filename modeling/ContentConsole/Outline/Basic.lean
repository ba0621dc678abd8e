import ContentConsole.Json.Basic
import ContentConsole.OpenKeys
import ContentConsole.Outline.Node

set_option autoImplicit false
set_option relaxedAutoImplicit false

/-!
The outline: the nodes drawn so far, the keys of open nodes, and the effects that wait to be carried
out. Nodes are kept in the order they were made, which is the order of their handles.
-/
namespace ContentConsole

/-- What drawing and editing ask of the world outside the outline. -/
inductive Effect
  | fetchChildren (node : Handle) (entityId : String) (resourceId : Option String)
  | upload (node : Handle) (entity : Entity)
  | setProperty (entityId key : String) (value : Json)
  /-- Previews that depend on edited entities are out of date. -/
  | reloadPreviews
deriving Repr

def Effect.node? : Effect → Option Handle
  | .fetchChildren node _ _ => some node
  | .upload node _ => some node
  | .setProperty .. | .reloadPreviews => none

def Effect.fetch? : Effect → Option (Handle × String × Option String)
  | .fetchChildren node entityId resourceId => some (node, entityId, resourceId)
  | _ => none

def Effect.upload? : Effect → Option (Handle × Entity)
  | .upload node entity => some (node, entity)
  | _ => none

structure Outline where
  nodes : List Node := []
  roots : List Handle := []
  nextHandle : Handle := 0
  openKeys : OpenKeys
  outbox : List Effect := []
  selected : Option Handle := none

namespace Outline

/-- Nothing drawn, with these keys remembered as open. -/
def start (openKeys : OpenKeys) : Outline := { openKeys }

instance : Inhabited Outline := ⟨start .empty⟩

def node? (o : Outline) (h : Handle) : Option Node := o.nodes.find? fun n => n.handle == h

def isLive (o : Outline) (h : Handle) : Bool := (o.node? h).isSome

def get (o : Outline) (h : Handle) : Except Fault Node :=
  match o.node? h with
  | some n => .ok n
  | none => .error (.unknownNode h)

/-- The first node drawn for exactly this entity, parent and resource. -/
def find? (o : Outline) (key : OpenKey) : Option Handle :=
  (o.nodes.find? fun n => n.key == key).map Node.handle

def showing (o : Outline) (entityId : String) : List Node :=
  o.nodes.filter fun n => n.entityId == entityId

/--
The node to draw under for a parent's id: the first that shows it in the same
resource, else the first that shows it.
-/
def parentFor (o : Outline) (parentId : String) (resourceId : Option String) : Option Handle :=
  let candidates := o.showing parentId
  let same := candidates.find? fun n => n.resourceId == resourceId
  (same.orElse fun _ => candidates.head?).map Node.handle

def listing (o : Outline) : Nat → Nat → Handle → List (Nat × Node)
  | 0, _, _ => []
  | levels + 1, depth, h =>
    match o.node? h with
    | none => []
    | some n => (depth, n) :: n.children.flatMap (o.listing levels (depth + 1))

/-- Every node below its parent, with its depth; no tree is deeper than there are nodes. -/
def walk (o : Outline) : List (Nat × Node) := o.roots.flatMap (o.listing o.nodes.length 0)

def subtree (o : Outline) (h : Handle) : List Node :=
  (o.listing o.nodes.length 0 h).map Prod.snd

def update (o : Outline) (h : Handle) (f : Node → Node) : Outline :=
  { o with nodes := o.nodes.map fun n => if n.handle = h then f n else n }

def push (o : Outline) (effects : List Effect) : Outline :=
  { o with outbox := o.outbox ++ effects }

/-- Adds a node as the last child of its parent, or as the last root if it has no live parent. -/
def insert (o : Outline) (n : Node) : Handle × Outline :=
  let h := o.nextHandle
  match n.parent.filter o.isLive with
  | some p =>
    let o := o.update p fun parent => { parent with children := parent.children ++ [h] }
    (h, { o with nodes := o.nodes ++ [{ n with handle := h }], nextHandle := h + 1 })
  | none =>
    (h, { o with nodes := o.nodes ++ [{ n with handle := h, parent := none }],
                 roots := o.roots ++ [h], nextHandle := h + 1 })

def unlink (o : Outline) (n : Node) : Outline :=
  match n.parent.filter o.isLive with
  | some p =>
    o.update p fun parent => { parent with children := parent.children.filter (· ≠ n.handle) }
  | none => { o with roots := o.roots.filter (· ≠ n.handle) }

/-- Drops nodes, with the selection and the effects that are for them. -/
def drop (o : Outline) (gone : List Handle) : Outline :=
  { o with
    nodes := o.nodes.filter fun n => !gone.contains n.handle
    selected := o.selected.filter fun h => !gone.contains h
    outbox := o.outbox.filter fun e => !(e.node?.any gone.contains) }

def prune (o : Outline) (h : Handle) : Outline :=
  match o.node? h with
  | none => o
  | some n => (o.unlink n).drop ((o.subtree h).map Node.handle)

/-- Removes a node with its subtree and gives the ids of the entities it showed. -/
def remove (o : Outline) (h : Handle) : Except Fault (List String × Outline) :=
  match o.node? h with
  | none => .error (.unknownNode h)
  | some _ => .ok ((o.subtree h).map Node.entityId, o.prune h)

def takeEffects (o : Outline) : List Effect × Outline := (o.outbox, { o with outbox := [] })

def click (o : Outline) (h : Handle) : Except Fault (Bool × Outline) :=
  match o.get h with
  | .error e => .error e
  | .ok n => if n.ignoresClicks then .ok (false, o) else .ok (true, { o with selected := some h })

end Outline

end ContentConsole
