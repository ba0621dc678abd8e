import ContentConsole.Outline.Draw
import ContentConsole.Text.Case

set_option autoImplicit false
set_option relaxedAutoImplicit false

/-! Opening and closing nodes, the outcome of fetches and uploads, and deleting entities. -/
namespace ContentConsole.Outline

/-- Removes nodes one after the other, up to the first that is not there. -/
def removeAll (o : Outline) : List Handle → Except Fault Outline
  | [] => .ok o
  | h :: hs =>
    match o.remove h with
    | .error e => .error e
    | .ok (_, o) => o.removeAll hs

/-- Closes an open node and opens a closed one; a leaf stays as it is. -/
def toggle (o : Outline) (h : Handle) : Except Fault (Expansion × Outline) :=
  match o.get h with
  | .error e => .error e
  | .ok n =>
    match n.expansion with
    | .leaf => .ok (.leaf, o)
    | .collapsed => .ok (.fetching, o.openNode h)
    | .fetching | .expanded =>
      match o.removeAll n.children with
      | .error e => .error e
      | .ok o =>
        match o.get h with
        | .error e => .error e
        | .ok _ =>
          let o := o.update h fun n => { n with expansion := .collapsed }
          .ok (.collapsed, { o with openKeys := o.openKeys.erase n.key })

/-- Draws one fetched child below a node. A child that comes with a subtree is drawn whole. -/
def receiveOne (o : Outline) (parent : Node) (e : Entity) : Drawn × Outline :=
  let isWhole := !e.children.isEmpty
  let at' : Place :=
    ⟨some parent.handle, some parent.entityId, parent.resourceId, true, e.hasMembers && !isWhole⟩
  let (drawn, o) := o.drawAt at' e
  (drawn, if isWhole then o.graft e (some drawn.handle) parent.resourceId else o)

def receiveEach (o : Outline) (parent : Node) : List Entity → List Drawn × Outline
  | [] => ([], o)
  | e :: es =>
    let (drawn, o) := receiveOne o parent e
    let (rest, o) := receiveEach o parent es
    (drawn :: rest, o)

/--
Draws the fetched children of a node that waits for them; for any other node they are out of date
and dropped. The outline is given back also when the node itself was replaced on the way.
-/
def receive (o : Outline) (h : Handle) (children : List Entity) :
    Except Fault (List Drawn) × Outline :=
  match o.get h with
  | .error e => (.error e, o)
  | .ok n =>
    if n.expansion ≠ .fetching then (.ok [], o)
    else
      let (drawn, o) := receiveEach o n children
      match o.get h with
      | .error e => (.error e, o)
      | .ok _ =>
        (.ok drawn, o.update h fun n =>
          { n with expansion := .expanded, isDeletable := n.isDeletable && children.isEmpty })

/-- A fetch failed: the node closes and is no longer remembered as open. -/
def abandonFetch (o : Outline) (h : Handle) : Except Fault Outline :=
  match o.get h with
  | .error e => .error e
  | .ok n =>
    if n.expansion ≠ .fetching then .ok o
    else
      let o := o.update h fun n => { n with expansion := .collapsed }
      .ok { o with openKeys := o.openKeys.erase n.key }

/-- An upload ended: its node is committed, or removed and the failure handed back. -/
def settleUpload (o : Outline) (h : Handle) (outcome : Except Fault Unit) :
    Except Fault Unit × Outline :=
  match outcome with
  | .ok () =>
    match o.get h with
    | .error e => (.error e, o)
    | .ok _ => (.ok (), o.update h fun n => { n with upload := .committed })
  | .error e => (.error e, o.prune h)

/-- The question before a deletion; none while the node may not be deleted. -/
def deletionPrompt (o : Outline) (h : Handle) : Except Fault (Option String) :=
  match o.get h with
  | .error e => .error e
  | .ok n =>
    if n.isDeletable then
      .ok (some s!"Delete {Text.lower n.typeName} '{n.shownName}' [{n.entityId}]?")
    else .ok none

def pruneCounted (o : Outline) : List Handle → Nat × Outline
  | [] => (0, o)
  | h :: hs =>
    let (count, rest) := pruneCounted (o.prune h) hs
    ((o.subtree h).length + count, rest)

/-- Removes every node that shows an entity and every key that mentions it; counts the nodes. -/
def forget (o : Outline) (entityId : String) : Nat × Outline :=
  let (count, o) := pruneCounted o ((o.showing entityId).map Node.handle)
  (count, { o with openKeys := o.openKeys.forget entityId })

end ContentConsole.Outline
