import ContentConsole.AccessPanel
import ContentConsole.Inspector.Basic
import ContentConsole.OpenKeys.Text
import ContentConsole.Server

set_option autoImplicit false
set_option relaxedAutoImplicit false

/-!
A session of the console: an outline and an inspector in front of a server. The session logs every
call in the order made, and may keep the open keys in a file.
-/
namespace ContentConsole

structure Report where
  attached : Nat := 0
  uploads : Nat := 0
  sets : Nat := 0
  previews : Nat := 0
  failures : List Fault := []
deriving DecidableEq, Repr, Inhabited

namespace Report

def ofFailure (e : Fault) : Report := { failures := [e] }

instance : Append Report where
  append a b :=
    ⟨a.attached + b.attached, a.uploads + b.uploads, a.sets + b.sets, a.previews + b.previews,
      a.failures ++ b.failures⟩

def isClean (r : Report) : Bool := r.failures.isEmpty

end Report

structure Session (σ : Type) where
  server : Server σ
  state : σ
  files : Files := .empty
  calls : List Call := []
  outline : Outline := .start .empty
  inspector : Inspector := {}
  /-- Records asked for at a time; never none. -/
  pageSize : Nat := 10
  /-- Uploads are accepted without asking the server. -/
  acceptsUploads : Bool := true
  /-- The file in which the open keys are kept. -/
  keyFile : Option String := none

namespace Session

variable {σ : Type}

def ask (s : Session σ) (call : Call) : call.Answer × Session σ :=
  let (answer, state) := s.server.answer call s.state
  (answer, { s with state, calls := s.calls ++ [call] })

def askAll {α β : Type} (s : Session σ) (ask : Session σ → α → β × Session σ) :
    List α → List β × Session σ
  | [] => ([], s)
  | x :: xs =>
    let (answer, s) := ask s x
    let (answers, s) := s.askAll ask xs
    (answer :: answers, s)

def withPageSize (s : Session σ) (pageSize : Nat) : Session σ :=
  { s with pageSize := max pageSize 1 }

def withKeyFile (s : Session σ) (path : String) : Except Fault (Session σ) :=
  (OpenKeys.load s.files path).map fun keys =>
    { s with outline := .start keys, keyFile := some path }

def persist (s : Session σ) : Except Fault Unit × Session σ :=
  match s.keyFile with
  | none => (.ok (), s)
  | some path =>
    match s.outline.openKeys.save s.files path with
    | .ok files => (.ok (), { s with files })
    | .error e => (.error e, s)

/-- Saves the open keys; a failure goes into the report. -/
def persisted (s : Session σ) : Report × Session σ :=
  match s.persist with
  | (.ok (), s) => ({}, s)
  | (.error e, s) => (.ofFailure e, s)

end Session

end ContentConsole
