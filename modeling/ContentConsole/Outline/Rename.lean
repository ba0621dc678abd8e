import ContentConsole.Outline.Basic

set_option autoImplicit false
set_option relaxedAutoImplicit false

/-! Editing a node's name in place. The first commit closes the input,
so one editing renames once. -/
namespace ContentConsole

inductive EditKey
  | enter
  | other
deriving DecidableEq, Repr

namespace Outline

/-- Opens the input on a node's name; answers whether it was closed before. -/
def editName (o : Outline) (h : Handle) : Except Fault (Bool × Outline) :=
  match o.get h with
  | .error e => .error e
  | .ok n =>
    match n.name with
    | .editing _ => .ok (false, o)
    | .label name =>
      .ok (true, o.update h fun n =>
        { n with name := .editing (.start name), showsButtons := false, ignoresClicks := true })

def typeName (o : Outline) (h : Handle) (text : String) : Except Fault Outline :=
  match o.get h with
  | .error e => .error e
  | .ok n =>
    match n.name with
    | .label _ => .ok o
    | .editing input =>
      .ok (o.update h fun n =>
        { n with name := .editing { input with buffer := text, isSelected := false } })

/-- Closes the input, if it is open, and asks for the rename; gives the name committed. -/
def commitName (o : Outline) (h : Handle) : Except Fault (Option String × Outline) :=
  match o.get h with
  | .error e => .error e
  | .ok n =>
    match n.name with
    | .label _ => .ok (none, o)
    | .editing input =>
      let o := o.update h fun n =>
        { n with name := .label input.buffer, ignoresClicks := false, showsButtons := true }
      .ok (some input.buffer,
        o.push [.setProperty n.entityId "name" (.str input.buffer), .reloadPreviews])

/-- The enter key commits; other keys do nothing, for any node. -/
def pressKey (o : Outline) (h : Handle) : EditKey → Except Fault (Option String × Outline)
  | .enter => o.commitName h
  | .other => .ok (none, o)

end Outline

end ContentConsole
