import ContentConsole.Fault
import ContentConsole.Inspector.Control
import ContentConsole.Inspector.Facet
import ContentConsole.Outline.Basic

set_option autoImplicit false
set_option relaxedAutoImplicit false

/-!
The property inspector: one tab for each facet of an entity, filled when its records
arrive. Each opening and closing starts a new generation, and records that were asked
for in an older one are dropped.
-/
namespace ContentConsole

structure PropertyRow where
  key : String
  label : String
  control : Control
  /-- The row has the focus. -/
  isActive : Bool
  /-- The draft was edited since it was last committed. -/
  isChanged : Bool
  /-- The value as fetched. -/
  fetched : Json
deriving Repr

structure RecordTable where
  recordId : String
  rows : List PropertyRow
deriving Repr

inductive TabState
  | loading
  | loaded (tables : List RecordTable)
  | failed (message : String)
deriving Repr

structure FacetTab where
  facet : Facet
  headerActive : Bool
  bodyVisible : Bool
  state : TabState
deriving Repr

structure Inspection where
  entityId : String
  type : EntityType
  generation : Nat
  tabs : List FacetTab
deriving Repr

structure Inspector where
  inspection : Option Inspection := none
  generation : Nat := 0
deriving Repr

structure FacetRequest where
  generation : Nat
  entityId : String
  facet : Facet
deriving DecidableEq, Repr

structure FieldRef where
  facet : Facet
  recordId : String
  key : String
deriving DecidableEq, Repr

namespace PropertyRow

def ofProperty (facet : Facet) (property : String × Json) : PropertyRow :=
  ⟨property.1, facet.keyLabel property.1, .ofProperty property.1 property.2, false,
    false, property.2⟩

def isEditable (row : PropertyRow) : Bool := row.control.isEditable

/-- Replaces the draft of an input; the same text again is no change. -/
def type (row : PropertyRow) (text : String) : PropertyRow :=
  match row.control with
  | .input draft =>
    if draft = text then row else { row with control := .input text, isChanged := true }
  | .switch _ | .text _ => row

/-- The value that leaving the row writes back; none for plain text. -/
def committed? (row : PropertyRow) : Option Json :=
  match row.control with
  | .input draft => some (row.fetched.retyped draft)
  | .switch isOn => some (.bool isOn)
  | .text _ => none

def leave (row : PropertyRow) : PropertyRow :=
  { row with isActive := false, isChanged := row.isChanged && row.committed?.isNone }

/-- The row with its switch flipped, and the new position; none for a row without a switch. -/
def flip? (row : PropertyRow) : Option (Bool × PropertyRow) :=
  match row.control with
  | .switch isOn => some (!isOn, { row with control := .switch !isOn })
  | .input _ | .text _ => none

end PropertyRow

namespace RecordTable

/-- The id of a record as text; a record without one has the empty id. -/
def idOf (record : Record) : String :=
  match record.get? "id" with
  | some (.str s) => s
  | some .null | none => ""
  | some value => value.compact

def ofRecord (facet : Facet) (record : Record) : RecordTable :=
  ⟨idOf record, record.map (PropertyRow.ofProperty facet)⟩

def hasKey (table : RecordTable) (key : String) : Bool := table.rows.any fun row => row.key == key

end RecordTable

def changeFirst {α : Type} (p : α → Bool) (f : α → α) : List α → List α
  | [] => []
  | x :: xs => if p x then f x :: xs else x :: changeFirst p f xs

namespace Inspection

def title (s : Inspection) : String := s!"Edit Properties of {s.entityId}"

def tab? (s : Inspection) (facet : Facet) : Option FacetTab :=
  s.tabs.find? fun t => t.facet == facet

def activeFacet (s : Inspection) : Option Facet :=
  (s.tabs.find? FacetTab.bodyVisible).map FacetTab.facet

def changeTab (s : Inspection) (facet : Facet) (f : FacetTab → FacetTab) : Inspection :=
  { s with tabs := changeFirst (fun t => t.facet == facet) f s.tabs }

def row (s : Inspection) (place : FieldRef) : Except Fault PropertyRow :=
  match s.tab? place.facet with
  | none => .error (.notFound s!"view {place.facet.name}")
  | some tab =>
    match tab.state with
    | .loading | .failed _ => .error (.notFound s!"view {place.facet.name} not loaded")
    | .loaded tables =>
      let rows := (tables.filter fun t => t.recordId == place.recordId).flatMap RecordTable.rows
      match rows.find? fun row => row.key == place.key with
      | some row => .ok row
      | none =>
        .error (.notFound
          s!"field {place.key} of record '{place.recordId}' in view {place.facet.name}")

def changeTable (key : String) (f : PropertyRow → PropertyRow)
    (table : RecordTable) : RecordTable :=
  { table with rows := changeFirst (fun row => row.key == key) f table.rows }

def changeLoaded (place : FieldRef) (f : PropertyRow → PropertyRow) : TabState → TabState
  | .loaded tables =>
    .loaded (changeFirst (fun t => t.recordId == place.recordId && t.hasKey place.key)
      (changeTable place.key f) tables)
  | state => state

def changeRow (s : Inspection) (place : FieldRef) (f : PropertyRow → PropertyRow) : Inspection :=
  s.changeTab place.facet fun tab => { tab with state := changeLoaded place f tab.state }

def reveal (s : Inspection) (facet : Facet) : Inspection :=
  { s with tabs := s.tabs.map fun tab =>
      { tab with headerActive := tab.facet == facet, bodyVisible := tab.facet == facet } }

end Inspection

namespace Inspector

def isOpen (i : Inspector) : Bool := i.inspection.isSome

/-- Opens for an entity with the first facet shown; gives one request for each of its facets. -/
def inspect (i : Inspector) (e : Entity) : List FacetRequest × Inspector :=
  let generation := i.generation + 1
  let facets := Facet.ofType e.type
  (facets.map fun facet => ⟨generation, e.id, facet⟩,
    { generation
      inspection := some
        ⟨e.id, e.type, generation,
          facets.map fun facet => ⟨facet, facet == .all, facet == .all, .loading⟩⟩ })

def close (i : Inspector) : Inspector := ⟨none, i.generation + 1⟩

def arrived (facet : Facet) : Except Fault (List Record) → TabState
  | .ok records => .loaded (records.map (RecordTable.ofRecord facet))
  | .error e => .failed e.message

/-- Fills a tab; `false` when the records are those of another generation or facet. -/
def receive (i : Inspector) (generation : Nat) (facet : Facet)
    (outcome : Except Fault (List Record)) : Bool × Inspector :=
  match i.inspection with
  | none => (false, i)
  | some s =>
    if s.generation = generation ∧ (s.tab? facet).isSome then
      (true, { i with
        inspection :=
          some (s.changeTab facet fun tab => { tab with state := arrived facet outcome }) })
    else (false, i)

def opened (i : Inspector) : Except Fault Inspection :=
  match i.inspection with
  | some s => .ok s
  | none => .error (.notFound "inspector is closed")

def select (i : Inspector) (facet : Facet) : Except Fault Inspector :=
  match i.opened with
  | .error e => .error e
  | .ok s =>
    match s.tab? facet with
    | none => .error (.notFound s!"view {facet.name}")
    | some _ => .ok { i with inspection := some (s.reveal facet) }

def located (i : Inspector) (place : FieldRef) : Except Fault (Inspection × PropertyRow) :=
  match i.opened with
  | .error e => .error e
  | .ok s =>
    match s.row place with
    | .error e => .error e
    | .ok row => .ok (s, row)

def focus (i : Inspector) (place : FieldRef) : Except Fault Inspector :=
  match i.located place with
  | .error e => .error e
  | .ok (s, _) =>
    .ok { i with inspection := some (s.changeRow place fun row => { row with isActive := true }) }

def edit (i : Inspector) (place : FieldRef) (text : String) : Except Fault Inspector :=
  match i.located place with
  | .error e => .error e
  | .ok (s, _) => .ok { i with inspection := some (s.changeRow place fun row => row.type text) }

/-- A row loses the focus: its value is written back, edited or not. -/
def blur (i : Inspector) (place : FieldRef) : Except Fault (List Effect × Inspector) :=
  match i.located place with
  | .error e => .error e
  | .ok (s, row) =>
    let effects :=
      match row.committed? with
      | none => []
      | some value =>
        .setProperty s.entityId row.key value :: if row.isChanged then [.reloadPreviews] else []
    .ok (effects, { i with inspection := some (s.changeRow place PropertyRow.leave) })

def flip (i : Inspector) (place : FieldRef) : Except Fault (List Effect × Inspector) :=
  match i.located place with
  | .error e => .error e
  | .ok (s, row) =>
    match row.flip? with
    | none => .ok ([], i)
    | some (isOn, flipped) =>
      .ok ([.setProperty s.entityId row.key (.bool isOn), .reloadPreviews],
        { i with inspection := some (s.changeRow place fun _ => flipped) })

end Inspector

end ContentConsole
