import ContentConsole.CommandLine.Command
import ContentConsole.Console.Basic
import ContentConsole.OpenKeys

set_option autoImplicit false
set_option relaxedAutoImplicit false

/-! The commands on the file of open nodes. -/
namespace ContentConsole.Console

variable {σ : Type}

def printKeys (d : Display) (keys : OpenKeys) : Printout :=
  match d.format with
  | .json => { lines := [.output keys.toText] }
  | .table | .plain =>
    if keys.keys.isEmpty then { lines := [d.item "(no expanded nodes)"] }
    else
      d.table ["Entity", "Parent", "Resource"]
        (keys.keys.map fun key => [key.entityId, key.parentId.getD "-", key.resourceId.getD "-"])

/-- Changes the keys; gives what there is to say of it. None for a command that changes nothing. -/
def changeKeys (d : Display) (keys : OpenKeys) : KeysCommand → Option (Line × OpenKeys)
  | .list => none
  | .add key =>
    let (isNew, keys) := keys.edit (.insert key)
    some (if isNew then d.success s!"Expanded {key.text}"
      else d.warning s!"{key.text} was already expanded", keys)
  | .remove key =>
    let (wasThere, keys) := keys.edit (.erase key)
    some (if wasThere then d.success s!"Collapsed {key.text}"
      else d.warning s!"{key.text} was not expanded", keys)
  | .forget id =>
    let (count, keys) := keys.edit (.forget id)
    some (d.success s!"Removed {count} key(s) mentioning {id}", keys)
  | .clear => some (d.success s!"Cleared {keys.size} key(s)", (keys.edit .clear).2)

def runKeys (c : Console) (w : World σ) (command : KeysCommand) : Outcome σ :=
  match c.keyFile? with
  | none => w.failed "No [tree] expansion_state file configured"
  | some path =>
    match OpenKeys.load w.files path with
    | .error e => w.failed (inContext s!"Failed to load expansion state {Text.quotedPath path}" e)
    | .ok keys =>
      match changeKeys c.display keys command with
      | none => w.shown (printKeys c.display keys)
      | some (line, keys) =>
        match keys.save w.files path with
        | .ok files => { w.printed [line] with files }
        | .error e =>
          (w.failed (inContext s!"Failed to save expansion state {Text.quotedPath path}" e)).after
            [line]

end ContentConsole.Console
