import ContentConsole.Json.Writer
import ContentConsole.Outline.Node
import ContentConsole.Terminal.Columns
import ContentConsole.Terminal.Ink
import ContentConsole.Text.Case

set_option autoImplicit false
set_option relaxedAutoImplicit false

/-!
How results are shown: as tables for the eye, as plain text with tabs between cells, or as JSON.
Notices of success are results; warnings and errors go beside them.
-/
namespace ContentConsole

inductive OutputFormat
  | table
  | json
  | plain
deriving DecidableEq, Repr, Inhabited

def OutputFormat.ofText? (s : String) : Option OutputFormat :=
  match Text.lowerAscii s with
  | "table" => some .table
  | "json" => some .json
  | "plain" => some .plain
  | _ => none

inductive Stream
  | output
  | errors
deriving DecidableEq, Repr

structure Line where
  stream : Stream
  text : String
deriving DecidableEq, Repr

namespace Line

def output (text : String) : Line := ⟨.output, text⟩

def errors (text : String) : Line := ⟨.errors, text⟩

def textOn (stream : Stream) (lines : List Line) : String :=
  String.join ((lines.filter fun l => l.stream = stream).map fun l => l.text ++ "\n")

end Line

/-- Lines that are printed in their order, up to the end or up to a cut. -/
structure Printout where
  lines : List Line := []
  isCut : Bool := false
deriving DecidableEq, Repr

namespace Printout

def append (p q : Printout) : Printout :=
  if p.isCut then p else { q with lines := p.lines ++ q.lines }

instance : Append Printout := ⟨append⟩

def join (ps : List Printout) : Printout := ps.foldr append {}

/-- A line of its own, or a cut in its place. -/
def orCut : Option Line → Printout
  | some line => { lines := [line] }
  | none => { isCut := true }

end Printout

inductive Severity
  | success
  | warning
  | error
deriving DecidableEq, Repr

namespace Severity

def tag : Severity → String
  | .success => "ok"
  | .warning => "warning"
  | .error => "error"

def mark : Severity → String
  | .success => "✓"
  | .warning => "⚠"
  | .error => "✗"

def ink : Severity → Terminal.Ink
  | .success => .green
  | .warning => .yellow
  | .error => .red

def stream : Severity → Stream
  | .success => .output
  | .warning | .error => .errors

end Severity

structure Display where
  format : OutputFormat := .table
  /-- Tables are coloured. -/
  hasColors : Bool := false
deriving DecidableEq, Repr, Inhabited

namespace Display

open Terminal

def paint (d : Display) (inks : List Ink) (s : String) : String :=
  if d.hasColors then Terminal.paint inks s else s

def notice (d : Display) (severity : Severity) (message : String) : Line :=
  ⟨severity.stream,
    match d.format with
    | .json => (Json.obj [("status", .str severity.tag), ("message", .str message)]).compact
    | .plain => s!"{severity.tag}: {message}"
    | .table => s!"{d.paint [severity.ink] severity.mark} {message}"⟩

def success (d : Display) (message : String) : Line := d.notice .success message

def warning (d : Display) (message : String) : Line := d.notice .warning message

def error (d : Display) (message : String) : Line := d.notice .error message

def entry (d : Display) (key value : String) : Line :=
  .output <|
    match d.format with
    | .json => (Json.obj [(key, .str value)]).compact
    | .plain => s!"{key}: {value}"
    | .table => s!"{d.paint [.cyan] key}: {value}"

/-- Rows below their headings, up to one that cannot be filled up; JSON shows none. -/
def table (d : Display) (headings : List String) (rows : List (List String)) : Printout :=
  match d.format with
  | .json => {}
  | .plain => { lines := (headings :: rows).map fun row => .output ("\t".intercalate row) }
  | .table =>
    let widths := columnWidths headings rows
    match padRow? headings widths with
    | none => { isCut := true }
    | some top =>
      let rule := String.ofList (List.replicate top.length '─')
      { lines := [.output (d.paint [.bold] top), .output (d.paint [.dimmed] rule)] } ++
        Printout.join (rows.map fun row => .orCut ((padRow? row widths).map .output))

/-- A title between empty lines; JSON shows none. -/
def heading (d : Display) (title : String) : List Line :=
  match d.format with
  | .json => []
  | .plain => [.output s!"\n{title}\n"]
  | .table => [.output s!"\n{d.paint [.bold, .underlined] title}\n"]

def item (d : Display) (text : String) : Line :=
  let bullet := d.paint [.cyan] "•"
  .output <|
    match d.format with
    | .table => s!"  {bullet} {text}"
    | .json | .plain => s!"  - {text}"

/-- A node on a line of its own, two spaces deeper than its parent; a lock marks
one that may not be deleted. -/
def node (d : Display) (depth : Nat) (n : Node) : List Line :=
  let indent := String.ofList (List.replicate (2 * depth) ' ')
  let name := if n.shownName.isEmpty then "(unnamed)" else n.shownName
  match d.format with
  | .json => []
  | .plain => [.output s!"{indent}{n.typeName} {name} [{n.entityId}]"]
  | .table =>
    let id := d.paint [.dimmed] s!"[{n.entityId}]"
    let lock := if n.isDeletable then "" else " 🔒"
    [.output s!"{indent}{n.expansion.icon} {n.type.icon} {d.paint [.bold] name} {id}{lock}"]

end Display

namespace Node

def toJson (depth : Nat) (n : Node) : Json :=
  .obj [("depth", .number (.int depth)), ("id", .str n.entityId), ("type", .str n.typeName),
    ("name", .str n.shownName), ("expand", .str n.expansion.name),
    ("deletable", .bool n.isDeletable), ("upload", .str n.upload.name)]

end Node

end ContentConsole
