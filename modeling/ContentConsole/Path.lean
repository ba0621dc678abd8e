set_option autoImplicit false
set_option relaxedAutoImplicit false

/-!
Paths of files and folders, in text and as the parts that lead to a place. A place below the folder
in which the console runs has the names on the way to it; one outside starts with `..` or `/`.
-/
namespace ContentConsole

abbrev Path := List String

namespace Path

def here : Path := []

def root : Path := ["/"]

/-- The folder above: `..` once more where nothing is known of it. -/
def up (p : Path) : Path :=
  if p = root then root
  else
    match p.getLast? with
    | none | some ".." => p ++ [".."]
    | some _ => p.dropLast

/-- Where a part of a path leads: an empty part and `.` stay, `..` goes up. -/
def step (p : Path) (part : String) : Path :=
  if part = "" ∨ part = "." then p else if part = ".." then p.up else p ++ [part]

/-- Folders that are there although no entry says so. -/
def isGiven (p : Path) : Bool := p == root || p.all (· == "..")

def isAbsolute (text : String) : Bool := text.toList.head? == some '/'

def ofText (text : String) : Path × List String :=
  let parts := text.toList.splitOn '/' |>.map String.ofList
  if isAbsolute text then (root, parts.tail) else (here, parts)

/-- Empty parts and `.` at the end of a path name nothing more. -/
private def trimIdle (parts : List String) : List String :=
  (parts.reverse.dropWhile fun part => part = "" || part = ".").reverse

/-- The path of the folder that holds what a path names; `.` for a path of one part. -/
def folderOf (text : String) : String :=
  match text.toList.splitOn '/' |>.map String.ofList with
  | [] => "."
  | first :: parts =>
    match trimIdle parts with
    | [] => "."
    | parts =>
      let folder := first :: trimIdle parts.dropLast
      if folder = [""] then "/" else "/".intercalate folder

def under (folder text : String) : String :=
  if isAbsolute text then text
  else if folder.toList.getLast? = some '/' then folder ++ text
  else s!"{folder}/{text}"

example : ["x/my.toml", "a.toml", "./a.toml", "a/./b.toml", "/a.toml"].map folderOf =
    ["x", ".", ".", "a", "/"] := by cbv

end Path

end ContentConsole
