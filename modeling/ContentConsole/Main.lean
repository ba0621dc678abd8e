import ContentConsole.Console.Footprint

set_option autoImplicit false
set_option relaxedAutoImplicit false

/-!
The program on a real machine: it reads the files that the run looks at, runs, prints,
and writes the files that the run changed. It has no network, so every request fails, and
no terminal to ask the user on.
-/
open ContentConsole

/-- What the file system has under a path; a folder is told by the code of its error. -/
private def readEntry (path : String) : IO (Option FileEntry) := do
  try
    let bytes ← IO.FS.readBinFile path
    match String.fromUTF8? bytes with
    | some content => return some (.text content)
    | none => return some (.bytes bytes.toList)
  catch
    | .inappropriateType _ 21 _ => return some .folder
    | _ => return none

/-- Adds what is there under a path, or else the folder in which it would be. -/
private def addPath (fs : Files) (path : String) : IO Files := do
  let kept (made : Except FileFault Files) : Files := made.toOption.getD fs
  match ← readEntry path with
  | some .folder => return kept (fs.makeFolders path)
  | some entry => return kept (fs.save path entry)
  | none =>
    let folder := Path.folderOf path
    match ← readEntry folder with
    | some .folder => return kept (fs.makeFolders folder)
    | some entry => return kept (fs.save folder entry)
    | none => return fs

private def printLine (line : Line) : IO Unit :=
  match line.stream with
  | .output => IO.println line.text
  | .errors => IO.eprintln line.text

private def writeChanged (before after : Files) (path : String) : IO Unit := do
  match after.find? path with
  | some (.text content) =>
    unless before.find? path = some (.text content) do
      IO.FS.createDirAll (Path.folderOf path)
      IO.FS.writeFile path content
  | _ => return

def main (args : List String) : IO UInt32 := do
  let env ← Console.variableNames.filterMapM fun name => do
    return (← IO.getEnv name).map fun value => (name, value)
  let world (files : Files) : World Unit :=
    { files, env := fun name => env.lookup name, network := .unreachable, state := () }
  let files ← (Console.paths (world .empty) args).foldlM addPath .empty
  let paths := Console.paths (world files) args
  let files ← paths.foldlM addPath files
  let exit := Console.run (world files) args
  exit.lines.forM printLine
  paths.forM (writeChanged files exit.files)
  return exit.code.toUInt32
