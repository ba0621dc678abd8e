import ContentConsole.Session.Effects

set_option autoImplicit false
set_option relaxedAutoImplicit false

/-! What the user does in the inspector and in the access panel. -/
namespace ContentConsole.Session

variable {σ : Type}

/-- Asks for the records of each facet and puts them where they belong; counts those taken in. -/
def load (s : Session σ) : List FacetRequest → Nat × Session σ
  | [] => (0, s)
  | request :: rest =>
    let (records, s) := s.ask (.records request.entityId request.facet s.pageSize)
    let (isTaken, inspector) := s.inspector.receive request.generation request.facet records
    let (count, s) := { s with inspector }.load rest
    ((if isTaken then 1 else 0) + count, s)

def inspect (s : Session σ) (e : Entity) : Nat × Session σ :=
  let (requests, inspector) := s.inspector.inspect e
  { s with inspector }.load requests

def closeInspector (s : Session σ) : Session σ := { s with inspector := s.inspector.close }

def applied (s : Session σ) (edited : Except Fault (List Effect × Inspector)) :
    Except Fault Report × Session σ :=
  match edited with
  | .error e => (.error e, s)
  | .ok (effects, inspector) =>
    let (report, s) := { s with inspector }.apply effects
    (.ok report, s)

def blurField (s : Session σ) (place : FieldRef) : Except Fault Report × Session σ :=
  s.applied (s.inspector.blur place)

def flipField (s : Session σ) (place : FieldRef) : Except Fault Report × Session σ :=
  s.applied (s.inspector.flip place)

/-- Asks for the properties of an access panel; the first failure in their order wins. -/
def accessPanel (s : Session σ) (id : String) : Except Fault AccessPanel × Session σ :=
  let (answers, s) :=
    s.askAll (fun s key => s.ask (.get id key)) AccessPanel.propertyKeys
  let fill (panel : AccessPanel) (property : String × Except Fault Json) :
      Except Fault AccessPanel :=
    property.2.map (panel.receive property.1)
  ((AccessPanel.propertyKeys.zip answers).foldlM fill (.start id), s)

/-- Flips a switch of a panel and writes it to the server. The panel keeps
its new position either way. -/
def clickAccess (s : Session σ) (panel : AccessPanel) (key : String) :
    Except Fault (Report × AccessPanel) × Session σ :=
  match panel.click key with
  | .error e => (.error e, s)
  | .ok (effect, panel) =>
    let (report, s) := s.apply [effect]
    (.ok (report, panel), s)

end ContentConsole.Session
