import ContentConsole.CommandLine.Command
import ContentConsole.Console.Basic
import ContentConsole.Graph

set_option autoImplicit false
set_option relaxedAutoImplicit false

/-! Drawing a tree, from the file of a graph or from the server, with nodes opened on request. -/
namespace ContentConsole.Console

variable {σ : Type}

/-! ## Opening nodes -/

/-- Opens those of the nodes that are closed. A leaf has nothing more to show. -/
private def openEach (c : Console) (s : Session σ) (id : String) :
    List Handle → List Line × Except Fault Unit × Session σ
  | [] => ([], .ok (), s)
  | h :: rest =>
    match (s.outline.node? h).map Node.expansion with
    | some .collapsed =>
      match s.toggle h with
      | (.error e, s) => ([], .error e, s)
      | (.ok (_, report), s) =>
        let (lines, result, s) := c.openEach s id rest
        (c.failures report ++ lines, result, s)
    | some .leaf =>
      let (lines, result, s) := c.openEach s id rest
      (c.display.warning s!"{id} cannot be expanded; everything below it is already shown" :: lines,
        result, s)
    | some .fetching | some .expanded | none => c.openEach s id rest

def openNodes (c : Console) (s : Session σ) (id : String) :
    List Line × Except Fault Unit × Session σ :=
  match (s.outline.showing id).map Node.handle with
  | [] => ([c.display.warning s!"No node shows entity {id}"], .ok (), s)
  | handles => c.openEach s id handles

/-- Opens the nodes of each entity in turn, up to the first error. -/
def openAll (c : Console) (s : Session σ) : List String → List Line × Except Fault Unit × Session σ
  | [] => ([], .ok (), s)
  | id :: rest =>
    match c.openNodes s id with
    | (lines, .error e, s) => (lines, .error e, s)
    | (lines, .ok (), s) =>
      let (more, result, s) := c.openAll s rest
      (lines ++ more, result, s)

/-! ## Drawing -/

def printTree (c : Console) (o : Outline) : List Line :=
  match c.display.format with
  | .json => [.output (Json.arr (o.walk.map fun (depth, n) => n.toJson depth)).pretty]
  | .table | .plain => o.walk.flatMap fun (depth, n) => c.display.node depth n

private def finishTree (c : Console) (s : Session σ) (report : Report)
    (expand : List String) : Outcome σ :=
  match c.openAll s expand with
  | (lines, .error e, s) => (s.failed e.message).after (c.failures report ++ lines)
  | (lines, .ok (), s) => s.printed (c.failures report ++ lines ++ c.printTree s.outline)

def drawRoots (s : Session σ) : List Entity → List Fault × Session σ
  | [] => ([], s)
  | root :: rest =>
    let (_, report, s) := s.drawTree root
    let (failures, s) := drawRoots s rest
    (report.failures ++ failures, s)

def drawGraph (c : Console) (files : Files) (path : String) :
    Except String (Report × Session Unit) := do
  let graph ← (Graph.load files path).mapError
    (inContext s!"Failed to read entity graph {Text.quotedPath path}")
  let graph : Graph :=
    if c.settings.tree.sortComponents then ⟨Entity.sortByName graph.roots⟩ else graph
  let s ← c.withKeys { server := graph.server, state := (), files }
  let (failures, s) := drawRoots s graph.roots
  return ({ failures }, s)

def treeOfFile (c : Console) (w : World σ) (path : String) (expand : List String) : Outcome σ :=
  match c.drawGraph w.files path with
  | .error e => w.failed e
  | .ok (report, s) => { c.finishTree s report expand with state := w.state }

/-- Opens the node of an entity that was just drawn, unless it was left open. -/
private def openDrawn (s : Session σ) (h : Handle) : Except Fault Report × Session σ :=
  if (s.outline.node? h).any fun n => n.expansion.isOpen then (.ok {}, s)
  else
    match s.toggle h with
    | (.error e, s) => (.error e, s)
    | (.ok (_, report), s) => (.ok { failures := report.failures }, s)

def treeOfEntity (c : Console) (w : World σ) (id : String) (resourceId : Option String)
    (expand : List String) : Outcome σ :=
  match c.client with
  | .error e => w.failed e
  | .ok client =>
    match resolve (c.connect w client false) id none with
    | (.error e, s) => s.failed e
    | (.ok entity, s) =>
      let started := c.status s!"Loading children of {id} from {client.root.text}"
      match c.withKeys s with
      | .error e => (s.failed e).after started
      | .ok s =>
        let (drawn, report, s) := s.draw entity none resourceId false true
        match openDrawn s drawn.handle with
        | (.error e, s) => (s.failed e.message).after started
        | (.ok opened, s) => (c.finishTree s (report ++ opened) expand).after started

def tree (c : Console) (w : World σ) (source : Option TreeSource)
    (expand : List String) : Outcome σ :=
  match source with
  | some (.file path) => c.treeOfFile w path expand
  | some (.entity id resourceId) => c.treeOfEntity w id resourceId expand
  | none => w.failed "Either --file or --id is required"

end ContentConsole.Console
