import ContentConsole.Console.Change
import ContentConsole.Console.Configure
import ContentConsole.Console.Inspect
import ContentConsole.Console.Keys
import ContentConsole.Console.Tree

set_option autoImplicit false
set_option relaxedAutoImplicit false

/-!
A run of the program, from the words behind its name to its exit code: 0 for success, 1 for
a command that failed, 2 for a command line that asks for nothing the program knows, and
101 for a table that is cut off.
-/
namespace ContentConsole

structure Exit (σ : Type) where
  code : Nat
  lines : List Line
  files : Files
  state : σ

namespace Console

variable {σ : Type}

def versionNumber : String := "0.1.0"

def usage : List String := [
  "Entity tree, inspector and editor for the content console",
  "",
  "Usage: entity-console [OPTIONS] <COMMAND>",
  "",
  "Commands:",
  "  tree       Render an entity tree",
  "  inspect    Show the property inspector for an entity",
  "  rename     Rename an entity",
  "  set        Set one property of an entity",
  "  delete     Delete an entity",
  "  expansion  Persisted expansion state",
  "  config     Configuration management"]

/-- The files that may hold the settings if none is named; the first that exists does. -/
def settingsPaths : List String := ["entity_console.toml", "config/entity_console.toml"]

def settingsPathIn (files : Files) (named : Option String) : String :=
  named.getD ((settingsPaths.find? files.contains).getD "entity_console.toml")

def perform (c : Console) (w : World σ) : Command → Outcome σ
  | .tree source expand => c.tree w source expand
  | .inspect id type facet showsAccess => c.inspect w id type facet showsAccess
  | .rename id name => c.rename w id name
  | .set id key value => c.set w id key value
  | .delete id isAgreed => c.delete w id isAgreed
  | .keys command => c.runKeys w command
  | .settings command => c.runSettings w command

def colorVariable : String := "CLICOLOR_FORCE"

/-- Colours are forced by a variable of the environment that is not `0`. -/
def hasColors (env : String → Option String) : Bool :=
  (env colorVariable).any fun value => value ≠ "0"

/-- The format of a name, which is a table for a name that is none, and
what there is to say of that. -/
def formatOf (name : String) : OutputFormat × List Line :=
  match OutputFormat.ofText? name with
  | some format => (format, [])
  | none =>
    let complaint := s!"'{Text.lowerAscii name}' is not an output format (table, json, plain)"
    (.table, [.errors s!"Warning: {complaint}. Using table format."])

def start (w : World σ) (i : Invocation) (format : OutputFormat) : Except String Console :=
  let settingsPath := settingsPathIn w.files i.settingsPath
  match Settings.load w.files settingsPath w.env with
  | .ok settings =>
    .ok { settingsPath, settings, display := ⟨format, hasColors w.env⟩, isQuiet := i.isQuiet }
  | .error e => .error (inContext s!"Failed to load config file {Text.quotedPath settingsPath}" e)

def runInvocation (w : World σ) (i : Invocation) : Exit σ :=
  let (format, notes) := formatOf i.format
  match start w i format with
  | .error e =>
    { code := 1, lines := notes ++ [.errors s!"Error loading configuration: {e}"], files := w.files,
      state := w.state }
  | .ok c =>
    let outcome := c.perform w i.command
    let lines := notes ++ outcome.lines
    match outcome.error with
    | none => { code := 0, lines, files := outcome.files, state := outcome.state }
    | some e =>
      { code := e.code, lines := lines ++ [.errors e.message], files := outcome.files,
        state := outcome.state }

def run (w : World σ) (args : List String) : Exit σ :=
  let stopped (code : Nat) (lines : List Line) : Exit σ :=
    { code, lines, files := w.files, state := w.state }
  match Invocation.read args w.env with
  | .ok i => runInvocation w i
  | .error (.version command) => stopped 0 [.output s!"{command} {versionNumber}"]
  | .error .help => stopped 0 (usage.map .output)
  | .error .rejected => stopped 2 [.errors "error: the arguments name no command; try '--help'"]

end Console

end ContentConsole
