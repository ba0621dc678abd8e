import ContentConsole.Entity.Basic
import ContentConsole.Json.Shape

set_option autoImplicit false
set_option relaxedAutoImplicit false

/-!
Entities on the wire: an object with a field `type`, whose collections are kept when they belong to
that type and checked and dropped when they do not.
-/
namespace ContentConsole

/-- The places on the wire where entities hold other entities. -/
inductive Slot
  | folders
  | images
  | files
  | users
  | elements
  | children
deriving DecidableEq, Repr

namespace Slot

def all : List Slot := [.folders, .images, .files, .users, .elements, .children]

def name : Slot → String
  | .folders => "folders"
  | .images => "images"
  | .files => "files"
  | .users => "users"
  | .elements => "elements"
  | .children => "children"

def ofName? (s : String) : Option Slot := all.find? fun slot => slot.name == s

end Slot

/-- The fields of an entity on the wire as far as they are read. -/
structure Wire where
  id : Option String := none
  type : String := ""
  name : Option String := none
  resourceId : Option String := none
  held : Slot → List Entity := fun _ => []

namespace Wire

open Json (ShapeError)

/-- The order of the fields' values in the array form. -/
def fieldNames : List String := ["id", "type", "name", "resourceId"] ++ Slot.all.map Slot.name

/-- The type with the collections that belong to it. An empty type is that of a plain element. -/
def kind (w : Wire) : Kind Entity :=
  match EntityType.ofName w.type with
  | .resource => .resource
  | .component => .component
  | .content => .content
  | .folder => .folder (w.held .folders) (w.held .images) (w.held .files)
  | .image => .image
  | .file => .file
  | .user => .user
  | .group => .group (w.held .users)
  | .element =>
    .element (if w.type.isEmpty then EntityType.element.name else w.type) (w.held .elements)

def toEntity (w : Wire) (id : String) : Entity :=
  ⟨id, w.name.getD "", w.resourceId, w.kind, w.held .children⟩

def hold (w : Wire) (slot : Slot) (entities : List Entity) : Wire :=
  { w with held := fun s => if s = slot then entities else w.held s }

/-- Reads a field that holds no entities; one that is not known is passed over. -/
def readText (w : Wire) (name : String) (value : Json) : Except ShapeError Wire :=
  match name with
  | "id" => value.asText.map fun s => { w with id := some s }
  | "type" => value.asText.map fun s => { w with type := s }
  | "name" => value.asOptionalText.map fun s => { w with name := s }
  | "resourceId" => value.asOptionalText.map fun s => { w with resourceId := s }
  | _ => .ok w

/-- An object is an entity if it has an id. -/
def ofObject (w : Wire) : Except ShapeError Entity :=
  match w.id with
  | some id => .ok (w.toEntity id)
  | none => .error (.missingField "id")

/-- An array is an entity if it has a value for the id and none behind the last field. -/
def ofArray (w : Wire) (length : Nat) : Except ShapeError Entity :=
  match w.id with
  | some id => if fieldNames.length < length then .error (.tooLong length) else .ok (w.toEntity id)
  | none => .error (.tooShort 0 "struct WireEntity with 10 elements")

end Wire

namespace Entity

open Json (ShapeError)

mutual

def ofJson : Json → Except ShapeError Entity
  | .obj fields =>
    match readFields {} fields with
    | .error e => .error e
    | .ok w => w.ofObject
  | .arr items =>
    match readValues {} Wire.fieldNames items with
    | .error e => .error e
    | .ok w => w.ofArray items.length
  | j => .error (.wrongType j "struct WireEntity")

def readFields (w : Wire) : List (String × Json) → Except ShapeError Wire
  | [] => .ok w
  | (name, value) :: rest =>
    match readField w name value with
    | .error e => .error e
    | .ok w => readFields w rest

def readValues (w : Wire) (names : List String) : List Json → Except ShapeError Wire
  | [] => .ok w
  | value :: rest =>
    match names with
    | [] => .ok w
    | name :: names =>
      match readField w name value with
      | .error e => .error e
      | .ok w => readValues w names rest

def readField (w : Wire) (name : String) : Json → Except ShapeError Wire
  | .arr items =>
    match Slot.ofName? name with
    | some slot => (readAll items).map fun entities => w.hold slot entities
    | none => w.readText name (.arr items)
  | value =>
    match Slot.ofName? name, value with
    | some slot, .null => .ok (w.hold slot [])
    | some _, value => .error (.wrongType value "a sequence")
    | none, value => w.readText name value

def readAll : List Json → Except ShapeError (List Entity)
  | [] => .ok []
  | j :: js =>
    match ofJson j with
    | .error e => .error e
    | .ok e =>
      match readAll js with
      | .error e => .error e
      | .ok es => .ok (e :: es)

end

def nonEmpty (name : String) : List Json → Record
  | [] => []
  | items => [(name, .arr items)]

mutual

/--
Writes an entity with its id and type first. A folder and a group name their collections even when
empty; names, elements and children are written when there are any.
-/
def toJson : Entity → Json
  | ⟨id, name, resourceId, kind, children⟩ =>
    .obj <|
      [("id", .str id), ("type", .str kind.typeName)] ++
      (if name.isEmpty then [] else [("name", .str name)]) ++
      (match resourceId with
        | some r => [("resourceId", .str r)]
        | none => []) ++
      membersToJson kind ++ nonEmpty "children" (toJsonAll children)

def membersToJson : Kind Entity → Record
  | .folder folders images files =>
    [("folders", .arr (toJsonAll folders)), ("images", .arr (toJsonAll images)),
      ("files", .arr (toJsonAll files))]
  | .group users => [("users", .arr (toJsonAll users))]
  | .element _ elements => nonEmpty "elements" (toJsonAll elements)
  | .resource | .component | .content | .image | .file | .user => []

def toJsonAll : List Entity → List Json
  | [] => []
  | e :: es => toJson e :: toJsonAll es

end

end Entity

namespace EntityType

/-- Reads a type strictly: its exact name, or an object with that name
as its only key and no value. -/
def ofJson : Json → Except Json.ShapeError EntityType
  | .str s => known s
  | .obj [(s, value)] =>
    match known s, value with
    | .error e, _ => .error e
    | .ok t, .null => .ok t
    | .ok _, value => .error (.wrongType value "unit")
  | .obj _ => .error .notOneKey
  | j => .error (.wrongType j "string or map")
where
  known (s : String) : Except Json.ShapeError EntityType :=
    match ofName? s with
    | some t => .ok t
    | none => .error (.unknownVariant s (all.map name))

end EntityType

end ContentConsole
