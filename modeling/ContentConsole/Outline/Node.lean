import ContentConsole.Entity.Basic
import ContentConsole.Fault
import ContentConsole.OpenKey
import ContentConsole.Text.Basic

set_option autoImplicit false
set_option relaxedAutoImplicit false

/-! What is drawn for one entity: a name, the state of its children, and which actions it offers. -/
namespace ContentConsole

inductive Expansion
  /-- The node offers no expansion. -/
  | leaf
  | collapsed
  /-- The children were asked for and have not arrived. -/
  | fetching
  | expanded
deriving DecidableEq, Repr, Inhabited

namespace Expansion

def icon : Expansion → String
  | .leaf => " "
  | .collapsed => "▸"
  | .fetching => "◐"
  | .expanded => "▾"

def isOpen : Expansion → Bool
  | .fetching | .expanded => true
  | .leaf | .collapsed => false

def name : Expansion → String
  | .leaf => "leaf"
  | .collapsed => "collapsed"
  | .fetching => "fetching"
  | .expanded => "expanded"

end Expansion

inductive UploadState
  | notRequired
  | pending
  | committed
deriving DecidableEq, Repr, Inhabited

def UploadState.name : UploadState → String
  | .notRequired => "notrequired"
  | .pending => "pending"
  | .committed => "committed"

structure NameInput where
  /-- The name that the input opened on. -/
  opened : String
  /-- The text typed so far. -/
  buffer : String
  /-- The whole text is selected, as when the input opens. -/
  isSelected : Bool
deriving DecidableEq, Repr

namespace NameInput

def start (name : String) : NameInput := ⟨Text.trim name, Text.trim name, true⟩

/-- The width in characters, four more than the name it opened on. -/
def size (input : NameInput) : Nat := input.opened.length + 4

end NameInput

inductive NameLabel
  | label (name : String)
  | editing (input : NameInput)
deriving DecidableEq, Repr

structure Node where
  handle : Handle
  entityId : String
  type : EntityType
  /-- The type's name on the wire. -/
  typeName : String
  parent : Option Handle
  parentId : Option String
  resourceId : Option String
  children : List Handle
  isDeletable : Bool
  expansion : Expansion
  name : NameLabel
  upload : UploadState
  /-- Clicks do not select while the name is edited. -/
  ignoresClicks : Bool
  showsButtons : Bool
deriving DecidableEq, Repr

namespace Node

def key (n : Node) : OpenKey := ⟨n.entityId, n.parentId, n.resourceId⟩

def shownName (n : Node) : String :=
  match n.name with
  | .label name => name
  | .editing input => input.buffer

end Node

end ContentConsole
