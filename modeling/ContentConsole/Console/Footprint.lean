import ContentConsole.Console.Run

set_option autoImplicit false
set_option relaxedAutoImplicit false

/-! What a run of the program looks at outside of itself: variables of the
environment and paths of files. -/
namespace ContentConsole

def Command.path? : Command → Option String
  | .tree (some (.file path)) _ => some path
  | .settings (.init path _) => some path
  | _ => none

namespace Console

variable {σ : Type}

def variableNames : List String :=
  [Invocation.settingsVariable, Settings.rootVariable, Settings.tokenVariable, colorVariable]

private def keyPath? (w : World σ) (i : Invocation) : Option String :=
  match start w i .plain with
  | .ok c => c.keyFile?
  | .error _ => none

/-- The paths that a run looks at. The file of open nodes is among them
once the settings are known. -/
def paths (w : World σ) (args : List String) : List String :=
  match Invocation.read args w.env with
  | .error _ => []
  | .ok i =>
    (match i.settingsPath with
      | some path => [path]
      | none => settingsPaths) ++ i.command.path?.toList ++ (keyPath? w i).toList

end Console

end ContentConsole
