import ContentConsole.OpenKeys
import ContentConsole.Fault
import ContentConsole.Files
import ContentConsole.Text.Basic

set_option autoImplicit false
set_option relaxedAutoImplicit false

/-!
The file of open keys: an array with one object for each key. It is read straight from its text, so
fields that mean nothing here may hold anything, but no field may come twice.
-/
namespace ContentConsole

open Json (Reading refuse refuseAt skipSpace nextItem nextField)

namespace OpenKey

def optional : Option String → Json
  | some s => .str s
  | none => .null

def toJson (key : OpenKey) : Json :=
  .obj [("entityId", .str key.entityId), ("parentId", optional key.parentId),
    ("resourceId", optional key.resourceId)]

structure Fields where
  entityId : Option String := none
  parentId : Option (Option String) := none
  resourceId : Option (Option String) := none

def readTextValue (cs : List Char) : Reading String :=
  match skipSpace cs with
  | '"' :: rest => (Json.readText rest).map fun (s, rest) => (String.ofList s, rest)
  | [] => refuse .endInValue []
  | rest => refuseAt (.shape "expected a string") rest

def readOptionalText (cs : List Char) : Reading (Option String) :=
  match skipSpace cs with
  | 'n' :: rest => Json.readWord none ['u', 'l', 'l'] rest
  | rest => (readTextValue rest).map fun (s, rest) => (some s, rest)

private def repeated (name : String) (rest : List Char) : Reading Fields :=
  refuse (.shape s!"duplicate field `{name}`") rest

def readNamed (f : Fields) (name : String) (cs : List Char) : Reading Fields :=
  match name with
  | "entityId" =>
    if f.entityId.isSome then repeated name cs
    else (readTextValue cs).map fun (s, rest) => ({ f with entityId := some s }, rest)
  | "parentId" =>
    if f.parentId.isSome then repeated name cs
    else (readOptionalText cs).map fun (s, rest) => ({ f with parentId := some s }, rest)
  | "resourceId" =>
    if f.resourceId.isSome then repeated name cs
    else (readOptionalText cs).map fun (s, rest) => ({ f with resourceId := some s }, rest)
  | _ => (Json.skipValue (cs.length + 1) cs).map fun ((), rest) => (f, rest)

def readFields : Nat → Fields → List Char → Reading Fields
  | 0, _, cs => refuse .expectedValue cs
  | fuel + 1, f, cs =>
    match Json.readKey cs with
    | .error e => .error e
    | .ok (name, rest) =>
      match readNamed f name rest with
      | .error e => .error e
      | .ok (f, rest) =>
        match nextField rest with
        | .error e => .error e
        | .ok (false, rest) => .ok (f, rest)
        | .ok (true, rest) => readFields fuel f rest

def ofFields (f : Fields) (rest : List Char) : Reading OpenKey :=
  match f.entityId with
  | some id => .ok (⟨id, f.parentId.getD none, f.resourceId.getD none⟩, rest)
  | none => refuse (.shape "missing field `entityId`") rest

private def wrongLength (rest : List Char) : Reading OpenKey :=
  refuse (.shape "expected struct ExpansionKey with 3 elements") rest

private def readValues (cs : List Char) : Reading OpenKey :=
  match readTextValue cs with
  | .error e => .error e
  | .ok (entityId, rest) =>
    match nextItem rest with
    | .error e => .error e
    | .ok (false, rest) => wrongLength rest
    | .ok (true, rest) =>
      match readOptionalText rest with
      | .error e => .error e
      | .ok (parentId, rest) =>
        match nextItem rest with
        | .error e => .error e
        | .ok (false, rest) => wrongLength rest
        | .ok (true, rest) =>
          match readOptionalText rest with
          | .error e => .error e
          | .ok (resourceId, rest) =>
            match nextItem rest with
            | .error e => .error e
            | .ok (false, rest) => .ok (⟨entityId, parentId, resourceId⟩, rest)
            | .ok (true, rest) => refuseAt .trailingCharacters rest

def readFrom (cs : List Char) : Reading OpenKey :=
  match skipSpace cs with
  | '\x7b' :: rest =>
    match skipSpace rest with
    | '\x7d' :: rest => ofFields {} rest
    | [] => refuse .endInObject []
    | rest =>
      match readFields (rest.length + 1) {} rest with
      | .error e => .error e
      | .ok (f, rest) => ofFields f rest
  | '[' :: rest =>
    match skipSpace rest with
    | ']' :: rest => wrongLength rest
    | [] => refuse .endInList []
    | rest => readValues rest
  | [] => refuse .endInValue []
  | rest => refuseAt (.shape "expected struct ExpansionKey") rest

end OpenKey

namespace OpenKeys

def readEach : Nat → List Char → Reading (List OpenKey)
  | 0, cs => refuse .expectedValue cs
  | fuel + 1, cs =>
    match OpenKey.readFrom cs with
    | .error e => .error e
    | .ok (key, rest) =>
      match nextItem rest with
      | .error e => .error e
      | .ok (false, rest) => .ok ([key], rest)
      | .ok (true, rest) =>
        match readEach fuel rest with
        | .error e => .error e
        | .ok (keys, rest) => .ok (key :: keys, rest)

def readArray (cs : List Char) : Reading (List OpenKey) :=
  match skipSpace cs with
  | '[' :: rest =>
    match skipSpace rest with
    | ']' :: rest => .ok ([], rest)
    | [] => refuse .endInList []
    | rest => readEach (rest.length + 1) rest
  | [] => refuse .endInValue []
  | rest => refuseAt (.shape "expected a sequence") rest

/-- Reads the text of a file of keys; a blank one holds none. -/
def ofText (text : String) : Except Json.SyntaxError OpenKeys :=
  if Text.isBlankText text then .ok empty
  else
    match readArray text.toList with
    | .error e => .error e
    | .ok (keys, rest) =>
      match skipSpace rest with
      | [] => .ok (ofList keys)
      | c :: rest => .error ⟨.trailingCharacters, (c :: rest).length - 1⟩

def toText (s : OpenKeys) : String := (Json.arr (s.keys.map OpenKey.toJson)).pretty

/-- Loads the keys from a file; a missing one holds none. -/
def load (fs : Files) (path : String) : Except Fault OpenKeys :=
  if fs.contains path then
    match fs.readText path with
    | .error e => .error (.io e.message)
    | .ok text => (ofText text).mapError (Fault.ofSyntax text)
  else .ok empty

def save (s : OpenKeys) (fs : Files) (path : String) : Except Fault Files :=
  (fs.saveText path s.toText).mapError fun e => .io e.message

end OpenKeys

end ContentConsole
