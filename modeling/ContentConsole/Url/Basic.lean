import ContentConsole.Url.Address

set_option autoImplicit false
set_option relaxedAutoImplicit false

/-! URLs and their text. -/
namespace ContentConsole

namespace Url

inductive Host
  /-- A domain name, or the name of another kind of host; it may be empty. -/
  | name (s : String)
  | address4 (n : Nat)
  | address6 (pieces : List Nat)
deriving DecidableEq, Repr

namespace Host

def text : Host → String
  | .name s => s
  | .address4 n => writeAddress4 n
  | .address6 pieces => s!"[{writeAddress6 pieces}]"

def isEmpty : Host → Bool
  | .name s => s.isEmpty
  | .address4 _ | .address6 _ => false

end Host

structure Authority where
  username : String := ""
  password : String := ""
  host : Host
  port : Option Nat := none
deriving DecidableEq, Repr

inductive UrlPath
  /-- A text that does not start with a slash; nothing can be joined to it. -/
  | rootless (text : String)
  /-- Segments with a slash before each. -/
  | segments (parts : List String)
deriving DecidableEq, Repr

end Url

structure Url where
  scheme : String
  authority : Option Url.Authority
  path : Url.UrlPath
  query : Option String := none
  fragment : Option String := none
deriving DecidableEq, Repr

namespace Url

/-- Schemes of which every URL has a host and a path. -/
def isSpecialScheme (scheme : String) : Bool :=
  ["http", "https", "ws", "wss", "ftp", "file"].contains scheme

def defaultPort : String → Option Nat
  | "http" | "ws" => some 80
  | "https" | "wss" => some 443
  | "ftp" => some 21
  | _ => none

namespace Authority

private def user (a : Authority) : String :=
  if a.username.isEmpty && a.password.isEmpty then ""
  else a.username ++ (if a.password.isEmpty then "" else ":" ++ a.password) ++ "@"

private def portText : Option Nat → String
  | some port => s!":{port}"
  | none => ""

def text (a : Authority) : String := a.user ++ a.host.text ++ portText a.port

end Authority

namespace UrlPath

def text : UrlPath → String
  | .rootless s => s
  | .segments parts => String.join (parts.map fun s => "/" ++ s)

end UrlPath

/-- What tells a path that starts with two slashes from an authority. -/
private def rootMark (u : Url) : String :=
  match u.authority, u.path with
  | none, .segments ("" :: _ :: _) => "/."
  | _, _ => ""

private def marked (mark : String) : Option String → String
  | some s => mark ++ s
  | none => ""

def text (u : Url) : String :=
  u.scheme ++ ":" ++ marked "//" (u.authority.map Authority.text) ++ u.rootMark ++ u.path.text ++
    marked "?" u.query ++ marked "#" u.fragment

def withSlash (u : Url) : Url :=
  match u.path with
  | .rootless s =>
    if s.toList.getLast? = some '/' then u
    else { u with path := .rootless (if s.isEmpty then "%2F" else s ++ "/") }
  | .segments parts =>
    if parts.getLast? = some "" then u else { u with path := .segments (parts ++ [""]) }

def withoutUser (u : Url) : Url :=
  { u with authority := u.authority.map fun a => { a with username := "", password := "" } }

end Url

end ContentConsole
