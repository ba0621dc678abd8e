import ContentConsole.Entity.Basic

set_option autoImplicit false
set_option relaxedAutoImplicit false

/-!
Looking entities up by id. The order of the search is preorder: an entity, then the members of its
type's own collections, then its children in the tree.
-/
namespace ContentConsole

mutual

def Entity.preorder : Entity → List Entity
  | ⟨id, name, resourceId, kind, children⟩ =>
    ⟨id, name, resourceId, kind, children⟩ :: (Kind.preorder kind ++ Entity.preorderAll children)

def Kind.preorder : Kind Entity → List Entity
  | .folder folders images files =>
    Entity.preorderAll folders ++ Entity.preorderAll images ++ Entity.preorderAll files
  | .group users => Entity.preorderAll users
  | .element _ elements => Entity.preorderAll elements
  | .resource | .component | .content | .image | .file | .user => []

def Entity.preorderAll : List Entity → List Entity
  | [] => []
  | e :: es => Entity.preorder e ++ Entity.preorderAll es

end

mutual

/-- The first entity with this id, without visiting those behind it. -/
def Entity.find? (wanted : String) : Entity → Option Entity
  | ⟨id, name, resourceId, kind, children⟩ =>
    if id = wanted then some ⟨id, name, resourceId, kind, children⟩
    else
      match Kind.find? wanted kind with
      | some e => some e
      | none => Entity.findIn? wanted children

def Kind.find? (wanted : String) : Kind Entity → Option Entity
  | .folder folders images files =>
    match Entity.findIn? wanted folders with
    | some e => some e
    | none =>
      match Entity.findIn? wanted images with
      | some e => some e
      | none => Entity.findIn? wanted files
  | .group users => Entity.findIn? wanted users
  | .element _ elements => Entity.findIn? wanted elements
  | .resource | .component | .content | .image | .file | .user => none

def Entity.findIn? (wanted : String) : List Entity → Option Entity
  | [] => none
  | e :: es =>
    match Entity.find? wanted e with
    | some found => some found
    | none => Entity.findIn? wanted es

end

end ContentConsole
