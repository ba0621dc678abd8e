import ContentConsole.Outline.Basic

set_option autoImplicit false
set_option relaxedAutoImplicit false

/-!
Drawing entities by their types. A folder, a group and a generic element draw the members of their
own collections below themselves; every other type is a single node.
-/
namespace ContentConsole

inductive Drawn
  /-- A single node. -/
  | flat (h : Handle)
  /-- A node below which the members of its collections are drawn already. -/
  | whole (h : Handle)
deriving DecidableEq, Repr

namespace Drawn

def handle : Drawn → Handle
  | .flat h | .whole h => h

end Drawn

/-- Where and how a node is drawn. -/
structure Place where
  parent : Option Handle
  parentId : Option String
  resourceId : Option String
  /-- A node with the same key is removed first. -/
  replaces : Bool
  /-- The node offers expansion. -/
  isExpandable : Bool

def Place.below (at' : Place) (parent : Handle) (parentId : String) : Place :=
  { at' with parent := some parent, parentId := some parentId }

namespace Outline

/-- Asks for the children of a node and remembers it as open. -/
def openNode (o : Outline) (h : Handle) : Outline :=
  match o.node? h with
  | none => o
  | some n =>
    let o := o.update h fun n => { n with expansion := .fetching }
    { o with openKeys := o.openKeys.insert n.key }.push [.fetchChildren h n.entityId n.resourceId]

/-- The resource a node is shown under: that of its place, else its own;
a resource is its own root. -/
def effectiveResource (at' : Place) (e : Entity) : Option String :=
  at'.resourceId.orElse fun _ =>
    e.resourceId.orElse fun _ => if e.type = .resource then some e.id else none

def freshNode (at' : Place) (e : Entity) : Node where
  handle := 0
  entityId := e.id
  type := e.type
  typeName := e.typeName
  parent := at'.parent
  parentId := at'.parentId
  resourceId := effectiveResource at' e
  children := []
  isDeletable := !(e.hasMembers || !e.children.isEmpty)
  expansion := if at'.isExpandable then .collapsed else .leaf
  name := .label e.name
  upload := .notRequired
  ignoresClicks := false
  showsButtons := true

def displace (o : Outline) (key : OpenKey) : Outline :=
  match o.find? key with
  | some old => o.prune old
  | none => o

/-- Draws the node of one entity and nothing below it. A node remembered as open opens at once. -/
def append (o : Outline) (at' : Place) (e : Entity) : Handle × Outline :=
  let fresh := freshNode at' e
  let o := if at'.replaces then o.displace fresh.key else o
  let (h, o) := o.insert fresh
  if at'.isExpandable && decide (fresh.key ∈ o.openKeys) then (h, o.openNode h) else (h, o)

def appendAll (o : Outline) (at' : Place) : List Entity → Outline
  | [] => o
  | e :: es => (o.append at' e).2.appendAll at' es

def stageUpload (o : Outline) (h : Handle) (e : Entity) : Outline :=
  if o.isLive h then (o.update h fun n => { n with upload := .pending }).push [.upload h e] else o

mutual

/-- Draws an entity at a place, by the strategy of its type. -/
def drawAt (o : Outline) (at' : Place) : Entity → Drawn × Outline
  | ⟨id, name, resourceId, kind, children⟩ =>
    let (h, o) := o.append at' ⟨id, name, resourceId, kind, children⟩
    match kind with
    | .resource | .component | .content | .user => (.flat h, o)
    | .image | .file => (.flat h, o.stageUpload h ⟨id, name, resourceId, kind, children⟩)
    | .folder folders images files =>
      let below := at'.below h id
      let o := (drawFolders o below folders).appendAll below images
      (.whole h, o.appendAll below (files.filter fun e => e.type = .file))
    | .group users => (.whole h, o.appendAll (at'.below h id) users)
    | .element _ elements => (.whole h, drawElements o (at'.below h id) elements)

def drawFolders (o : Outline) (at' : Place) : List Entity → Outline
  | [] => o
  | e :: es => drawFolders (drawAt o at' e).2 at' es

/-- Draws elements by their strategy and contents as single nodes, and passes over the rest. -/
def drawElements (o : Outline) (at' : Place) : List Entity → Outline
  | [] => o
  | e :: es =>
    match e.type with
    | .element => drawElements (drawAt o at' e).2 at' es
    | .content => drawElements (o.append at' e).2 at' es
    | _ => drawElements o at' es

end

def draw (o : Outline) (e : Entity) (parentId resourceId : Option String)
    (replaces isExpandable : Bool) : Drawn × Outline :=
  let parent := parentId.bind fun id => o.parentFor id resourceId
  o.drawAt ⟨parent, parentId, resourceId, replaces, isExpandable⟩ e

/-! A graph that is laid out as a tree is drawn whole: nothing is left to fetch below its nodes. -/

mutual

def graftOne (o : Outline) (at' : Place) : Entity → Outline
  | ⟨id, name, resourceId, kind, children⟩ =>
    let (h, o) := o.append at' ⟨id, name, resourceId, kind, children⟩
    let below := at'.below h id
    let o :=
      match kind with
      | .folder _ _ files => o.appendAll below files
      | _ => o
    graftAll o below children

/-- Draws entities and all their children in the tree below a place; a
folder draws its files first. -/
def graftAll (o : Outline) (at' : Place) : List Entity → Outline
  | [] => o
  | e :: es => graftAll (graftOne o at' e) at' es

end

def graft (o : Outline) (e : Entity) (anchor : Option Handle)
    (resourceId : Option String) : Outline :=
  o.graftAll ⟨anchor, some e.id, resourceId, false, false⟩ e.children

/-- Draws the children in the tree of an entity below the node that shows it. -/
def drawTree (o : Outline) (e : Entity) (resourceId : Option String) : Outline :=
  o.graft e (o.parentFor e.id resourceId) resourceId

end Outline

end ContentConsole
