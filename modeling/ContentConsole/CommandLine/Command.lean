import ContentConsole.CommandLine.Reader
import ContentConsole.OpenKey

set_option autoImplicit false
set_option relaxedAutoImplicit false

/-! The commands of the console, and how a command line asks for one. -/
namespace ContentConsole

inductive TreeSource
  | file (path : String)
  /-- The children of an entity on the server, as seen below a resource. -/
  | entity (id : String) (resourceId : Option String)
deriving DecidableEq, Repr

inductive KeysCommand
  | list
  | add (key : OpenKey)
  | remove (key : OpenKey)
  | forget (id : String)
  | clear
deriving DecidableEq, Repr

inductive SettingsCommand
  | describe
  | validate
  /-- Writes a file of settings to start from. -/
  | init (path : String) (overwrites : Bool)
deriving DecidableEq, Repr

inductive Command
  /-- Draws a tree and opens the nodes that show the given entities. -/
  | tree (source : Option TreeSource) (expand : List String)
  | inspect (id : String) (type : Option String) (facet : Option Facet) (showsAccess : Bool)
  | rename (id name : String)
  | set (id key value : String)
  /-- Deletes an entity, without asking if that was agreed to beforehand. -/
  | delete (id : String) (isAgreed : Bool)
  | keys (command : KeysCommand)
  | settings (command : SettingsCommand)
deriving DecidableEq, Repr

/-- A command with the options that all commands have. -/
structure Invocation where
  command : Command
  settingsPath : Option String
  format : String
  isQuiet : Bool
deriving DecidableEq, Repr

namespace Invocation

open CommandLine

/-- The variable of the environment that names the file of settings. -/
def settingsVariable : String := "ENTITY_CONSOLE_CONFIG"

private def treeCommand (g : Given) : Option Command :=
  match g.value? .file, g.value? .id with
  | some _, some _ => none
  | some path, none => some (.tree (some (.file path)) (g.values .expand))
  | none, some id => some (.tree (some (.entity id (g.value? .resource))) (g.values .expand))
  | none, none => some (.tree none (g.values .expand))

/-- The command of a level; none where a command or an operand is missing or
options exclude each other. -/
def command? (level : Level) (g : Given) : Option Command :=
  match level, g.operands with
  | .tree, [] => treeCommand g
  | .inspect, [id] =>
    some (.inspect id (g.value? .type) ((g.value? .view).bind Facet.ofText?) (g.has .access))
  | .rename, [id, name] => some (.rename id name)
  | .set, [id, key, value] => some (.set id key value)
  | .delete, [id] => some (.delete id (g.has .yes))
  | .expansionList, [] => some (.keys .list)
  | .expansionAdd, [id] => some (.keys (.add ⟨id, g.value? .parent, g.value? .resource⟩))
  | .expansionRemove, [id] => some (.keys (.remove ⟨id, g.value? .parent, g.value? .resource⟩))
  | .expansionForget, [id] => some (.keys (.forget id))
  | .expansionClear, [] => some (.keys .clear)
  | .configShow, [] => some (.settings .describe)
  | .configValidate, [] => some (.settings .validate)
  | .configInit, [] =>
    some (.settings (.init ((g.value? .output).getD "entity_console.toml") (g.has .force)))
  | _, _ => none

/-- Reads a command line. A variable of the environment may stand in for the file of settings. -/
def read (args : List String) (env : String → Option String) : Except Stop Invocation :=
  let standIn (o : Opt) : Option String := if o = .config then env settingsVariable else none
  match readWords standIn args with
  | .error stop => .error stop
  | .ok words =>
    match command? words.level words.last with
    | none => .error .rejected
    | some command =>
      .ok
        { command
          settingsPath := (words.value? .config).orElse fun _ => env settingsVariable
          format := (words.value? .outputFormat).getD "table"
          isQuiet := words.has .quiet }

end Invocation

end ContentConsole
