set_option autoImplicit false
set_option relaxedAutoImplicit false

/-!
Content entities. Each type carries exactly the child collections that belong to it, so a collection
that is foreign to a type cannot be asked for.
-/
namespace ContentConsole

inductive EntityType
  | resource
  | component
  | content
  | folder
  | image
  | file
  | user
  | group
  /-- The generic container, also for types the console does not know. -/
  | element
deriving DecidableEq, Repr, Inhabited

namespace EntityType

def all : List EntityType :=
  [.resource, .component, .content, .folder, .image, .file, .user, .group, .element]

def name : EntityType → String
  | .resource => "Resource"
  | .component => "Component"
  | .content => "Content"
  | .folder => "Folder"
  | .image => "Image"
  | .file => "File"
  | .user => "User"
  | .group => "Group"
  | .element => "Element"

def ofName? (s : String) : Option EntityType := all.find? fun t => t.name == s

/-- Every name that is not known is that of a generic container. -/
def ofName (s : String) : EntityType := (ofName? s).getD .element

def icon : EntityType → String
  | .resource => "📄"
  | .component => "🧩"
  | .content => "📝"
  | .folder => "📁"
  | .image => "🖼"
  | .file => "📎"
  | .user => "👤"
  | .group => "👥"
  | .element => "▫"

end EntityType

/-- A type together with the collections of its own. -/
inductive Kind (α : Type)
  | resource
  | component
  | content
  | folder (folders images files : List α)
  | image
  | file
  | user
  | group (users : List α)
  /-- `typeName` is the name on the wire: `Element`, or a name that is not known. -/
  | element (typeName : String) (elements : List α)
deriving Repr

namespace Kind

variable {α : Type}

def type : Kind α → EntityType
  | .resource => .resource
  | .component => .component
  | .content => .content
  | .folder .. => .folder
  | .image => .image
  | .file => .file
  | .user => .user
  | .group _ => .group
  | .element .. => .element

def typeName : Kind α → String
  | .element typeName _ => typeName
  | k => k.type.name

/-- All members of the type's own collections, in the order they are drawn. -/
def members : Kind α → List α
  | .folder folders images files => folders ++ images ++ files
  | .group users => users
  | .element _ elements => elements
  | .resource | .component | .content | .image | .file | .user => []

def emptyFolder : Kind α := .folder [] [] []

def emptyElement : Kind α := .element EntityType.element.name []

end Kind

structure Entity where
  id : String
  name : String := ""
  /-- The root resource the entity was loaded under, if any. -/
  resourceId : Option String := none
  kind : Kind Entity
  /-- Children of a graph that is already laid out as a tree. -/
  children : List Entity := []
deriving Repr

instance : Inhabited Entity := ⟨⟨"", "", none, .resource, []⟩⟩

namespace Entity

def type (e : Entity) : EntityType := e.kind.type

def typeName (e : Entity) : String := e.kind.typeName

/-- Some collection of the type's own is not empty; the tree's `children` do not count. -/
def hasMembers (e : Entity) : Bool := !e.kind.members.isEmpty

/-- Orders entities by name, equal names in the order given; so the unnamed come first. -/
def sortByName (entities : List Entity) : List Entity :=
  entities.mergeSort fun a b => decide (a.name ≤ b.name)

/-! Entities put together by hand: an id and a kind first, all else when it is given. -/

def new (id : String) (kind : Kind Entity) : Entity := { id, kind }

def withName (e : Entity) (name : String) : Entity := { e with name }

def withResource (e : Entity) (resourceId : String) : Entity :=
  { e with resourceId := some resourceId }

def withChildren (e : Entity) (children : List Entity) : Entity := { e with children }

end Entity

end ContentConsole
