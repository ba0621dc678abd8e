import ContentConsole.CommandLine.Command
import ContentConsole.Console.Basic
import ContentConsole.Settings

set_option autoImplicit false
set_option relaxedAutoImplicit false

/-! The commands on the settings: showing them, checking them and starting a file of them. -/
namespace ContentConsole.Console

variable {σ : Type}

def printSettings (c : Console) : List Line :=
  let d := c.display
  let server := c.settings.server
  match d.format with
  | .json => [.output c.settings.toJson.pretty]
  | .table | .plain =>
    d.heading "Configuration" ++
    [d.entry "Config file" c.settingsPath] ++
    d.heading "Server" ++
    [d.entry "Root URL" server.rootUrl,
      d.entry "Session header" server.sessionHeader,
      d.entry "Session token" (if server.sessionToken.isSome then "(set)" else "(none)"),
      d.entry "Page size" (toString server.pageSize),
      d.entry "Timeout (ms)" (toString server.timeoutMs)] ++
    d.heading "Tree" ++
    [d.entry "Expansion state" (c.keyFile?.getD "(in memory)"),
      d.entry "Sort components" (if c.settings.tree.sortComponents then "true" else "false")]

def warnings (c : Console) (files : Files) : List String :=
  let missing := s!"Config file {Text.quotedPath c.settingsPath} not found; using defaults"
  if files.contains c.settingsPath then c.settings.warnings else missing :: c.settings.warnings

def validate (c : Console) (files : Files) : List Line :=
  let warnings := c.warnings files
  let verdict :=
    if warnings.isEmpty then "Configuration is valid" else "Configuration is valid with warnings:"
  c.status s!"Validating configuration: {Text.quotedPath c.settingsPath}" ++
    c.display.success verdict :: warnings.map c.display.warning

/-- A document of the default settings, with those that are optional in comments. -/
def settingsTemplate : String :=
  s!"# Entity console configuration
# Generated by: entity-console config init
#
# {Settings.rootVariable} and {Settings.tokenVariable} override the server settings below.

[server]
root_url = \"http://localhost:8082/rest/\"
# session_token = \"...\"
session_header = \"X-Session-Token\"
page_size = 10
timeout_ms = 10000

[tree]
# expansion_state = \"expanded.json\"
sort_components = true
"

/-- Starts a file of settings; one that is there is only replaced on request. -/
def initSettings (c : Console) (w : World σ) (path : String) (overwrites : Bool) : Outcome σ :=
  if w.files.contains path && !overwrites then
    w.printed [c.display.error s!"File already exists: {path}. Use --force to overwrite."]
  else
    match w.files.writeText path settingsTemplate with
    | .ok files =>
      { w.printed [c.display.success s!"Created configuration file: {path}"] with files }
    | .error e => w.failed s!"Failed to write config file {path}: {e.message}"

def runSettings (c : Console) (w : World σ) : SettingsCommand → Outcome σ
  | .describe => w.printed c.printSettings
  | .validate => w.printed (c.validate w.files)
  | .init path overwrites => c.initSettings w path overwrites

end ContentConsole.Console
