import ContentConsole.Http
import ContentConsole.Session.Tree
import ContentConsole.Rest.Server
import ContentConsole.Settings
import ContentConsole.Terminal.Display

set_option autoImplicit false
set_option relaxedAutoImplicit false

/-!
The console as a program: its settings, what it finds outside of itself,
and what a command leaves behind.
-/
namespace ContentConsole

/-- What a command finds when it starts. -/
structure World (σ : Type) where
  files : Files
  /-- The variables of the environment. -/
  env : String → Option String
  network : Http.Network σ
  /-- The state of the network. -/
  state : σ
  /-- What the user answers when asked. -/
  agrees : Bool := false

/-- What ends a command early: an error that it reports, or a table that cannot be filled up. -/
inductive CommandError
  | reported (message : String)
  | tooWide
deriving DecidableEq, Repr

namespace CommandError

def code : CommandError → Nat
  | .reported _ => 1
  | .tooWide => 101

theorem code_ne_zero : ∀ e : CommandError, e.code ≠ 0
  | .reported _ => Nat.one_ne_zero
  | .tooWide => by decide

def message : CommandError → String
  | .reported message => s!"Error: {message}"
  | .tooWide => "Formatting argument out of range"

end CommandError

/-- What a command leaves behind: the lines it printed, and the error that ended it early. -/
structure Outcome (σ : Type) where
  lines : List Line := []
  error : Option CommandError := none
  files : Files
  state : σ

namespace Outcome

variable {σ : Type}

def after (o : Outcome σ) (lines : List Line) : Outcome σ := { o with lines := lines ++ o.lines }

end Outcome

namespace World

variable {σ : Type}

def printed (w : World σ) (lines : List Line) : Outcome σ :=
  { lines, files := w.files, state := w.state }

/-- A command that prints up to a cut, if there is one, and changes nothing. -/
def shown (w : World σ) (p : Printout) : Outcome σ :=
  { w.printed p.lines with error := if p.isCut then some .tooWide else none }

def failed (w : World σ) (error : String) : Outcome σ :=
  { error := some (.reported error), files := w.files, state := w.state }

end World

namespace Session

variable {σ : Type}

def printed (s : Session σ) (lines : List Line) : Outcome σ :=
  { lines, files := s.files, state := s.state }

def shown (s : Session σ) (p : Printout) : Outcome σ :=
  { s.printed p.lines with error := if p.isCut then some .tooWide else none }

def failed (s : Session σ) (error : String) : Outcome σ :=
  { error := some (.reported error), files := s.files, state := s.state }

end Session

structure Console where
  settingsPath : String
  settings : Settings
  display : Display
  /-- Says nothing about what it is doing. -/
  isQuiet : Bool
deriving Repr

namespace Console

variable {σ : Type}

def inContext (context : String) (e : Fault) : String := s!"{context}: {e.message}"

/-- The file of open nodes. A path that is not absolute starts at the folder of the settings. -/
def keyFile? (c : Console) : Option String :=
  c.settings.tree.expansionState.map (Path.under (Path.folderOf c.settingsPath))

def status (c : Console) (message : String) : List Line :=
  if c.isQuiet then [] else [.errors message]

def failures (c : Console) (r : Report) : List Line :=
  r.failures.map fun e => c.display.warning e.message

def withKeys (c : Console) (s : Session σ) : Except String (Session σ) :=
  match c.keyFile? with
  | none => .ok s
  | some path =>
    (s.withKeyFile path).mapError
      (inContext s!"Failed to load expansion state {Text.quotedPath path}")

def client (c : Console) : Except String RestClient :=
  (RestClient.ofSettings c.settings.server).mapError (inContext "Failed to create REST client")

/-- A session over the network, with no open nodes yet. -/
def connect (c : Console) (w : World σ) (client : RestClient) (agrees : Bool) : Session σ :=
  Session.withPageSize
    { server := client.server w.network agrees, state := w.state, files := w.files }
    c.settings.effectivePageSize

/--
The entity of an id as far as the server knows it. A type given wins over the server's, and a
name that cannot be read is empty.
-/
def resolve (s : Session σ) (id : String) (type : Option String) :
    Except String Entity × Session σ :=
  let (typeName, s) := s.ask (.get id "type")
  let (name, s) := s.ask (.get id "name")
  let text : Json → String
    | .str s => s
    | _ => ""
  let known : Except String String :=
    match type with
    | some t => .ok t
    | none => (typeName.map text).mapError (inContext s!"Failed to read type of {id}")
  let name := (name.toOption.map text).getD ""
  (known.map fun t => ({ type := t, name := some name } : Wire).toEntity id, s)

end Console

end ContentConsole
