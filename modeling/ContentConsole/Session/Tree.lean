import ContentConsole.Outline.Rename
import ContentConsole.Session.Effects

set_option autoImplicit false
set_option relaxedAutoImplicit false

/-! What the user does in the outline. Each action carries out the
effects it caused before it ends. -/
namespace ContentConsole.Session

variable {σ : Type}

/-- Draws one entity, and fetches at once what was left open. -/
def draw (s : Session σ) (e : Entity) (parentId resourceId : Option String)
    (replaces isExpandable : Bool) : Drawn × Report × Session σ :=
  let (drawn, outline) := s.outline.draw e parentId resourceId replaces isExpandable
  (drawn, { s with outline }.runEffects)

/--
Draws a root with its whole tree of children. A root that brings children offers no expansion, as
there is nothing left to fetch.
-/
def drawTree (s : Session σ) (root : Entity) : Drawn × Report × Session σ :=
  let isExpandable := root.hasMembers && root.children.isEmpty
  let (drawn, outline) := s.outline.draw root none none false isExpandable
  let resourceId := (outline.node? drawn.handle).bind Node.resourceId
  (drawn, { s with outline := outline.drawTree root resourceId }.runEffects)

/-- Opens or closes a node; gives its expansion after the fetch has ended. -/
def toggle (s : Session σ) (h : Handle) : Except Fault (Expansion × Report) × Session σ :=
  match s.outline.toggle h with
  | .error e => (.error e, s)
  | .ok (_, outline) =>
    let (report, s) := { s with outline }.runEffects
    let (saved, s) := s.persisted
    match s.outline.get h with
    | .error e => (.error e, s)
    | .ok n => (.ok (n.expansion, report ++ saved), s)

/-- Opens the input on a name, types the new one and presses enter, up to the first failure. -/
def editThenEnter (o : Outline) (h : Handle) (name : String) :
    Except Fault (Option String) × Outline :=
  match o.editName h with
  | .error e => (.error e, o)
  | .ok (_, o) =>
    match o.typeName h name with
    | .error e => (.error e, o)
    | .ok o =>
      match o.pressKey h .enter with
      | .error e => (.error e, o)
      | .ok (committed, o) => (.ok committed, o)

def rename (s : Session σ) (h : Handle) (name : String) :
    Except Fault (Option String × Report) × Session σ :=
  match editThenEnter s.outline h name with
  | (.error e, outline) => (.error e, { s with outline })
  | (.ok committed, outline) =>
    let (report, s) := { s with outline }.runEffects
    (.ok (committed, report), s)

def leaveName (s : Session σ) (h : Handle) : Except Fault (Option String × Report) × Session σ :=
  match s.outline.commitName h with
  | .error e => (.error e, s)
  | .ok (committed, outline) =>
    let (report, s) := { s with outline }.runEffects
    (.ok (committed, report), s)

/--
Deletes the entity of a node after a yes. `false` when the node may not be deleted, the answer was
no, or there was nothing to delete.
-/
def delete (s : Session σ) (h : Handle) : Except Fault Bool × Session σ :=
  match s.outline.get h, s.outline.deletionPrompt h with
  | .error e, _ | .ok _, .error e => (.error e, s)
  | .ok _, .ok none => (.ok false, s)
  | .ok n, .ok (some prompt) =>
    match s.ask (.confirm prompt) with
    | (false, s) => (.ok false, s)
    | (true, s) =>
      match s.ask (.delete n.entityId) with
      | (.error e, s) => (.error e, s)
      | (.ok false, s) => (.ok false, s)
      | (.ok true, s) =>
        match { s with outline := (s.outline.forget n.entityId).2 }.persist with
        | (.error e, s) => (.error e, s)
        | (.ok (), s) => (.ok true, s)

end ContentConsole.Session
