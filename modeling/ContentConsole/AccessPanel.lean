import ContentConsole.Fault
import ContentConsole.Json.Writer
import ContentConsole.Outline.Basic

set_option autoImplicit false
set_option relaxedAutoImplicit false

/-! The access panel of an entity: who owns it and who may see it. -/
namespace ContentConsole

/-- The groups of readers to whom an entity may be visible. -/
inductive Audience
  | everyone
  | authenticated
deriving DecidableEq, Repr, Inhabited

namespace Audience

def all : List Audience := [.everyone, .authenticated]

def key : Audience → String
  | .everyone => "visibleToPublicUsers"
  | .authenticated => "visibleToAuthenticatedUsers"

def label : Audience → String
  | .everyone => "Visible to public users"
  | .authenticated => "Visible to authenticated users"

def ofKey? (key : String) : Option Audience := all.find? fun a => a.key == key

end Audience

structure AccessPanel where
  entityId : String
  owner : Option String
  isVisibleTo : Audience → Bool

namespace AccessPanel

def ownerKey : String := "ownerId"

def propertyKeys : List String := ownerKey :: Audience.all.map Audience.key

/-- Nobody known to own the entity, and every switch off. -/
def start (entityId : String) : AccessPanel := ⟨entityId, none, fun _ => false⟩

instance : Inhabited AccessPanel := ⟨start ""⟩

/-- An owner as fetched; an empty one is none. -/
def ownerOf : Json → Option String
  | .null => none
  | .str s => if s.isEmpty then none else some s
  | value => some value.compact

/-- Only a literal `true`, or the text of it, turns a switch on. -/
def isTrue : Json → Bool
  | .bool b => b
  | .str s => s == "true"
  | _ => false

def put (p : AccessPanel) (audience : Audience) (isOn : Bool) : AccessPanel :=
  { p with isVisibleTo := fun a => if a = audience then isOn else p.isVisibleTo a }

/-- Takes in a fetched property; one that the panel does not show changes nothing. -/
def receive (p : AccessPanel) (key : String) (value : Json) : AccessPanel :=
  if key = ownerKey then { p with owner := ownerOf value }
  else
    match Audience.ofKey? key with
    | some audience => p.put audience (isTrue value)
    | none => p

def switch? (p : AccessPanel) (key : String) : Option Bool :=
  (Audience.ofKey? key).map p.isVisibleTo

def click (p : AccessPanel) (key : String) : Except Fault (Effect × AccessPanel) :=
  match Audience.ofKey? key with
  | none => .error (.notFound s!"access switch {key}")
  | some audience =>
    let isOn := !p.isVisibleTo audience
    .ok (.setProperty p.entityId audience.key (.bool isOn), p.put audience isOn)

end AccessPanel

end ContentConsole
