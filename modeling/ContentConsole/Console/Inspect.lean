import ContentConsole.Console.Basic
import ContentConsole.Session.Properties

set_option autoImplicit false
set_option relaxedAutoImplicit false

/-! Showing the facets of an entity, and who may see it. -/
namespace ContentConsole

namespace FacetTab

private def recordJson (table : RecordTable) : Json :=
  .obj [("id", .str table.recordId),
    ("rows", .arr (table.rows.map fun row =>
      .obj [("key", .str row.key), ("label", .str row.label), ("value", row.fetched),
        ("editable", .bool row.isEditable)]))]

/-- What JSON shows of a tab: its records, or why there are none. -/
def toJson (tab : FacetTab) : Json :=
  let (state, records) :=
    match tab.state with
    | .loading => ("loading", Json.null)
    | .failed message => ("failed", .str message)
    | .loaded tables => ("loaded", .arr (tables.map recordJson))
  .obj [("view", .str tab.facet.name), ("label", .str tab.facet.heading),
    ("active", .bool tab.headerActive), ("state", .str state), ("records", records)]

end FacetTab

def AccessPanel.toJson (p : AccessPanel) : Json :=
  let owner : Json :=
    match p.owner with
    | some owner => .str owner
    | none => .null
  .obj (("owner", owner) :: Audience.all.map fun a => (a.key, .bool (p.isVisibleTo a)))

namespace Console

variable {σ : Type}

/-! ## Printing -/

private def printRecord (d : Display) (table : RecordTable) : Printout :=
  let cells (row : PropertyRow) : List String :=
    [row.label, row.control.shown, if row.isEditable then "yes" else ""]
  { lines := [d.entry "Record" table.recordId] } ++
    d.table ["Key", "Value", "Editable"] (table.rows.map cells) ++ { lines := [.output ""] }

/-- A tab below its heading; a star marks the one in front. -/
private def printTab (d : Display) (tab : FacetTab) : Printout :=
  let mark := if tab.headerActive then " *" else ""
  { lines := d.heading (tab.facet.heading ++ mark) } ++
    match tab.state with
    | .loading => { lines := [d.item "(loading)"] }
    | .failed message => { lines := [d.warning s!"{tab.facet.heading}: {message}"] }
    | .loaded [] => { lines := [d.item "(no records)"] }
    | .loaded tables => .join (tables.map (printRecord d))

private def printAccess (d : Display) (p : AccessPanel) : List Line :=
  d.heading "Access Control" ++ d.entry "Owner" (p.owner.getD "(none)") ::
    Audience.all.map fun a => d.entry a.label (if p.isVisibleTo a then "on" else "off")

def printInspection (d : Display) (s : Inspection) (tabs : List FacetTab)
    (panel : Option AccessPanel) : Printout :=
  match d.format with
  | .json =>
    let access : Record :=
      match panel with
      | some p => [("access", p.toJson)]
      | none => []
    { lines := [.output (Json.obj ([("id", .str s.entityId), ("type", .str s.type.name),
      ("views", .arr (tabs.map FacetTab.toJson))] ++ access)).pretty] }
  | .table | .plain =>
    { lines := d.heading s.title } ++ .join (tabs.map (printTab d)) ++
      match panel with
      | some p => { lines := printAccess d p }
      | none => {}

/-! ## Inspecting -/

private def selected (s : Session σ) : Option Facet → Except Fault (Session σ)
  | none => .ok s
  | some facet => (s.inspector.select facet).map fun inspector => { s with inspector }

private def panelOf (s : Session σ) (id : String) (isWanted : Bool) :
    Except Fault (Option AccessPanel) × Session σ :=
  if isWanted then
    let (panel, s) := s.accessPanel id
    (panel.map some, s)
  else (.ok none, s)

private def printSession (c : Console) (s : Session σ) (facet : Option Facet)
    (panel : Option AccessPanel) : Outcome σ :=
  match s.inspector.inspection with
  | none => s.failed "Inspector did not open"
  | some inspection =>
    let tabs :=
      match facet with
      | none => inspection.tabs
      | some facet => inspection.tabs.filter fun tab => tab.facet = facet
    s.shown (printInspection c.display inspection tabs panel)

/-- Shows all facets of an entity or the one asked for, and on request its access panel. -/
def inspect (c : Console) (w : World σ) (id : String) (type : Option String) (facet : Option Facet)
    (showsAccess : Bool) : Outcome σ :=
  match c.client with
  | .error e => w.failed e
  | .ok client =>
    match resolve (c.connect w client false) id type with
    | (.error e, s) => s.failed e
    | (.ok entity, s) =>
      match c.withKeys s with
      | .error e => s.failed e
      | .ok s =>
        let (_, s) := s.inspect entity
        match selected s facet with
        | .error e => s.failed e.message
        | .ok s =>
          match panelOf s entity.id showsAccess with
          | (.error e, s) => s.failed e.message
          | (.ok panel, s) => c.printSession s facet panel

end Console

end ContentConsole
