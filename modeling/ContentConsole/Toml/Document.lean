import ContentConsole.Toml.Basic

set_option autoImplicit false
set_option relaxedAutoImplicit false

/-!
A TOML document while it is read. Each table remembers how it came to be, because a table that is
defined may not be defined again and a table made by dotted keys may not be reopened by a header.
-/
namespace ContentConsole.Toml

/-- How a table came to be. -/
inductive Origin
  /-- By a header of its own. -/
  | header
  /-- On the way to a table of a longer header. -/
  | implied
  /-- On the way of a dotted key. -/
  | dotted
deriving DecidableEq, Repr

inductive Item
  | value (v : Toml)
  | table (origin : Origin) (entries : List (String × Item))
  /-- The tables of an array that grows by headers in double brackets. -/
  | tables (elements : List (List (String × Item)))
deriving Repr

abbrev Entries := List (String × Item)

mutual

def Item.toToml : Item → Toml
  | .value v => v
  | .table _ entries => .table (entriesToToml entries)
  | .tables elements => .array (elementsToToml elements)

def entriesToToml : List (String × Item) → List (String × Toml)
  | [] => []
  | (key, item) :: rest => (key, item.toToml) :: entriesToToml rest

def elementsToToml : List (List (String × Item)) → List Toml
  | [] => []
  | entries :: rest => .table (entriesToToml entries) :: elementsToToml rest

end

namespace Entries

def get? (entries : Entries) (key : String) : Option Item := List.lookup key entries

def put (key : String) (item : Item) : Entries → Entries
  | [] => [(key, item)]
  | (k, x) :: rest => if k = key then (k, item) :: rest else (k, x) :: put key item rest

def changeLast (f : Entries → Option Entries) : List Entries → Option (List Entries)
  | [] => none
  | [last] => (f last).map fun last => [last]
  | x :: xs => (changeLast f xs).map fun xs => x :: xs

/-- Changes the table under a key, made anew with `origin` if it is missing. -/
def enter (origin : Origin) (f : Entries → Option Entries) (key : String)
    (entries : Entries) : Option Entries :=
  match entries.get? key with
  | none => (f []).map fun inner => entries.put key (.table origin inner)
  | some (.table o inner) => (f inner).map fun inner => entries.put key (.table o inner)
  | some (.tables elements) =>
    (changeLast f elements).map fun elements => entries.put key (.tables elements)
  | some (.value _) => none

/-- Opens the table of a header. It must not be defined yet, except on the way to another. -/
def openTable : List String → Entries → Option Entries
  | [], _ => none
  | [key], entries =>
    match entries.get? key with
    | none => some (entries.put key (.table .header []))
    | some (.table .implied inner) => some (entries.put key (.table .header inner))
    | some _ => none
  | key :: rest, entries => enter .implied (openTable rest) key entries

def openElement : List String → Entries → Option Entries
  | [], _ => none
  | [key], entries =>
    match entries.get? key with
    | none => some (entries.put key (.tables [[]]))
    | some (.tables elements) => some (entries.put key (.tables (elements ++ [[]])))
    | some _ => none
  | key :: rest, entries => enter .implied (openElement rest) key entries

def within (f : Entries → Option Entries) : List String → Entries → Option Entries
  | [], entries => f entries
  | key :: rest, entries => enter .implied (within f rest) key entries

/--
Defines a dotted key. Its last part must be new; the tables before it must not have headers, and the
last of them must have been made by dotted keys.
-/
def define (value : Toml) : List String → Entries → Option Entries
  | [], _ => none
  | [key], entries =>
    if (entries.get? key).isSome then none else some (entries ++ [(key, .value value)])
  | key :: rest, entries =>
    let isLast := rest.length = 1
    match entries.get? key with
    | some (.table .header _) | some (.value _) => none
    | some (.table .implied _) | some (.tables _) =>
      if isLast then none else enter .dotted (define value rest) key entries
    | some (.table .dotted _) | none => enter .dotted (define value rest) key entries

end Entries

/-- The table at the root, and the path of the table opened last. -/
structure Document where
  root : Entries := []
  current : List String := []

namespace Document

def openTable (d : Document) (path : List String) : Option Document :=
  (d.root.openTable path).map fun root => ⟨root, path⟩

def openElement (d : Document) (path : List String) : Option Document :=
  (d.root.openElement path).map fun root => ⟨root, path⟩

def define (d : Document) (key : List String) (value : Toml) : Option Document :=
  (d.root.within (Entries.define value key) d.current).map fun root => { d with root }

def toToml (d : Document) : Toml := .table (entriesToToml d.root)

end Document

end ContentConsole.Toml
