import ContentConsole.Fault
import ContentConsole.Files
import ContentConsole.Json.Writer
import ContentConsole.Text.Basic
import ContentConsole.Text.Quoted
import ContentConsole.Toml.Reader
import ContentConsole.Url.Reader

set_option autoImplicit false
set_option relaxedAutoImplicit false

/-!
The settings of the console, read from a TOML document. What a document leaves out keeps its
default, and keys that mean nothing here are passed over. Settings that can be used may be doubtful
all the same, which is what the warnings are for.
-/
namespace ContentConsole

structure ServerSettings where
  /-- The root of the entities: their ids are appended to it. -/
  rootUrl : String := "http://localhost:8082/rest/"
  sessionToken : Option String := none
  /-- The header that carries the token. -/
  sessionHeader : String := "X-Session-Token"
  /-- Records asked for at a time. -/
  pageSize : Nat := 10
  timeoutMs : Nat := 10000
deriving DecidableEq, Repr, Inhabited

structure TreeSettings where
  /-- The file in which open nodes are kept; none keeps them in memory. -/
  expansionState : Option String := none
  /-- Roots of a graph are drawn in the order of their names. -/
  sortComponents : Bool := true
deriving DecidableEq, Repr, Inhabited

structure Settings where
  server : ServerSettings := {}
  tree : TreeSettings := {}
deriving DecidableEq, Repr, Inhabited

namespace Toml

def asText? : Toml → Option String
  | .text s => some s
  | _ => none

def asNat? : Toml → Option Nat
  | .integer (.ofNat n) => some n
  | _ => none

def asBool? : Toml → Option Bool
  | .boolean b => some b
  | _ => none

/--
The named fields of a value. An array has its items for the first of the names, and what follows
behind the last name is passed over; a date has no field of any name.
-/
def fields? (names : List String) : Toml → Option (List (String × Toml))
  | .table entries => some entries
  | .array items => some (names.zip items)
  | .moment _ => some []
  | _ => none

end Toml

namespace ServerSettings

def fieldNames : List String :=
  ["root_url", "session_token", "session_header", "page_size", "timeout_ms"]

def readField (s : ServerSettings) (field : String × Toml) : Option ServerSettings :=
  match field.1 with
  | "root_url" => field.2.asText?.map fun x => { s with rootUrl := x }
  | "session_token" => field.2.asText?.map fun x => { s with sessionToken := some x }
  | "session_header" => field.2.asText?.map fun x => { s with sessionHeader := x }
  | "page_size" => field.2.asNat?.map fun x => { s with pageSize := x }
  | "timeout_ms" => field.2.asNat?.map fun x => { s with timeoutMs := x }
  | _ => some s

def ofToml? (v : Toml) : Option ServerSettings :=
  (v.fields? fieldNames).bind fun fields => fields.foldlM readField {}

end ServerSettings

namespace TreeSettings

def fieldNames : List String := ["expansion_state", "sort_components"]

def readField (s : TreeSettings) (field : String × Toml) : Option TreeSettings :=
  match field.1 with
  | "expansion_state" => field.2.asText?.map fun x => { s with expansionState := some x }
  | "sort_components" => field.2.asBool?.map fun x => { s with sortComponents := x }
  | _ => some s

def ofToml? (v : Toml) : Option TreeSettings :=
  (v.fields? fieldNames).bind fun fields => fields.foldlM readField {}

end TreeSettings

namespace Settings

def readField (s : Settings) (field : String × Toml) : Option Settings :=
  match field.1 with
  | "server" => (ServerSettings.ofToml? field.2).map fun server => { s with server }
  | "tree" => (TreeSettings.ofToml? field.2).map fun tree => { s with tree }
  | _ => some s

def ofToml? : Toml → Option Settings
  | .table entries => entries.foldlM readField {}
  | _ => none

def normalRoot (root : String) : String :=
  let root := Text.trim root
  if root.toList.getLast? = some '/' then root else root ++ "/"

def normalize (s : Settings) : Settings :=
  { s with server := { s.server with rootUrl := normalRoot s.server.rootUrl } }

def ofText (text : String) : Except Fault Settings :=
  match (Toml.read text).bind ofToml? with
  | some s => .ok s.normalize
  | none => .error (.configuration "TOML parse error")

/-! ## Overriding -/

def rootVariable : String := "ENTITY_CONSOLE_ROOT_URL"

def tokenVariable : String := "ENTITY_CONSOLE_TOKEN"

def notBlank (value : Option String) : Option String := value.filter fun s => !Text.isBlankText s

/-- Variables of the environment replace the root and the token unless they are blank. -/
def override (s : Settings) (env : String → Option String) : Settings :=
  normalize
    { s with server := { s.server with
        rootUrl := (notBlank (env rootVariable)).getD s.server.rootUrl
        sessionToken := (notBlank (env tokenVariable)).orElse fun _ => s.server.sessionToken } }

/-- Loads the settings from a file, a missing one leaving the defaults, and overrides them. -/
def load (fs : Files) (path : String) (env : String → Option String) : Except Fault Settings :=
  let settings : Except Fault Settings :=
    if fs.contains path then
      match fs.readText path with
      | .error e =>
        .error (.configuration s!"Failed to read config file {Text.quotedPath path}: {e.message}")
      | .ok text => ofText text
    else .ok {}
  settings.map fun s => s.override env

def effectivePageSize (s : Settings) : Nat := max s.server.pageSize 1

/-! ## Writing -/

def entry (key : String) (value : List Char) : List Char :=
  key.toList ++ ' ' :: '=' :: ' ' :: value ++ ['\n']

def textEntry (key : String) (value : String) : List Char := entry key (Toml.writeText value)

def optionalEntry (key : String) : Option String → List Char
  | some value => textEntry key value
  | none => []

def writeBool : Bool → List Char
  | true => ['t', 'r', 'u', 'e']
  | false => ['f', 'a', 'l', 's', 'e']

def toText (s : Settings) : String :=
  String.ofList <|
    "[server]\n".toList ++ textEntry "root_url" s.server.rootUrl ++
    optionalEntry "session_token" s.server.sessionToken ++
    textEntry "session_header" s.server.sessionHeader ++
    entry "page_size" (Nat.toDigits 10 s.server.pageSize) ++
    entry "timeout_ms" (Nat.toDigits 10 s.server.timeoutMs) ++
    "\n[tree]\n".toList ++ optionalEntry "expansion_state" s.tree.expansionState ++
    entry "sort_components" (writeBool s.tree.sortComponents)

/-- Writes the document, in which an integer has 64 bits with a sign: a larger number is refused. -/
def write (s : Settings) : Except Fault String :=
  if Toml.fits s.server.pageSize && Toml.fits s.server.timeoutMs then .ok s.toText
  else .error (.configuration "out-of-range value for u64 type")

private def optionalJson : Option String → Json
  | some s => .str s
  | none => .null

def toJson (s : Settings) : Json :=
  .obj [
    ("server", .obj [("root_url", .str s.server.rootUrl),
      ("session_token", optionalJson s.server.sessionToken),
      ("session_header", .str s.server.sessionHeader),
      ("page_size", .number (.int s.server.pageSize)),
      ("timeout_ms", .number (.int s.server.timeoutMs))]),
    ("tree", .obj [("expansion_state", optionalJson s.tree.expansionState),
      ("sort_components", .bool s.tree.sortComponents)])]

private def when (isDoubtful : Bool) (warning : String) : List String :=
  if isDoubtful then [warning] else []

private def isUrl (s : String) : Bool := (Url.read s).isOk

def warnings (s : Settings) : List String :=
  when (!isUrl s.server.rootUrl) s!"server.root_url '{s.server.rootUrl}' is not a valid URL" ++
  when s.server.sessionToken.isNone "No session token configured; requests are anonymous" ++
  when (s.server.pageSize = 0) "server.page_size is 0; the inspector will request 1 record" ++
  when (Text.isBlankText s.server.sessionHeader) "server.session_header is empty"

end Settings

end ContentConsole
