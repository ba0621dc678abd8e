import ContentConsole.Toml.Document
import ContentConsole.Toml.Scalar
import ContentConsole.Toml.Text

set_option autoImplicit false
set_option relaxedAutoImplicit false

/-!
Reading TOML documents. Arrays and inline tables nest less than `depthLimit` deep, and a
key has fewer parts than that.
-/
namespace ContentConsole.Toml

def depthLimit : Nat := 80

def readKeyPart (cs : List Char) : Reading String :=
  match cs with
  | '"' :: rest => (readBasic rest).map (Prod.map String.ofList id)
  | '\'' :: rest => (readLiteral rest).map (Prod.map String.ofList id)
  | cs =>
    let part := cs.takeWhile isBareKey
    if part.isEmpty then none else some (String.ofList part, cs.dropWhile isBareKey)

def readKeyParts : Nat → List Char → Reading (List String)
  | 0, _ => none
  | fuel + 1, cs =>
    match readKeyPart (skipSpace cs) with
    | none => none
    | some (part, rest) =>
      match skipSpace rest with
      | '.' :: rest => (readKeyParts fuel rest).map fun (parts, rest) => (part :: parts, rest)
      | rest => some ([part], rest)

def readKey (cs : List Char) : Reading (List String) := readKeyParts (depthLimit - 1) cs

def skipLines : Nat → List Char → Option (List Char)
  | 0, _ => none
  | fuel + 1, cs =>
    match skipSpace cs with
    | '#' :: rest => (readNewline? (skipComment ('#' :: rest))).bind (skipLines fuel)
    | '\n' :: rest => skipLines fuel rest
    | '\r' :: rest => (readNewline? ('\r' :: rest)).bind (skipLines fuel)
    | cs => some cs

def skipBetween (cs : List Char) : Option (List Char) := skipLines (cs.length + 1) cs

def readEquals (cs : List Char) : Option (List Char) :=
  match cs with
  | '=' :: rest => some (skipSpace rest)
  | _ => none

mutual

/-- Reads one value. `depth` brackets may still be opened; the fuel bounds the recursion. -/
def readValue : Nat → Nat → List Char → Reading Toml
  | 0, _, _ => none
  | fuel + 1, depth, cs =>
    match cs with
    | '"' :: _ | '\'' :: _ => (readText cs).map (Prod.map Toml.text id)
    | 't' :: 'r' :: 'u' :: 'e' :: rest => some (.boolean true, rest)
    | 'f' :: 'a' :: 'l' :: 's' :: 'e' :: rest => some (.boolean false, rest)
    | '[' :: rest =>
      match depth with
      | 0 => none
      | depth + 1 =>
        match skipBetween rest with
        | none => none
        | some (']' :: rest) => some (.array [], rest)
        | some rest => (readItems fuel depth rest).map (Prod.map Toml.array id)
    | '\x7b' :: rest =>
      match depth with
      | 0 => none
      | depth + 1 =>
        match skipSpace rest with
        | '\x7d' :: rest => some (.table [], rest)
        | rest =>
          (readFields fuel depth [] rest).map fun (entries, rest) =>
            (.table (entriesToToml entries), rest)
    | cs => readNumeric cs

def readItems : Nat → Nat → List Char → Reading (List Toml)
  | 0, _, _ => none
  | fuel + 1, depth, cs =>
    match readValue fuel depth cs with
    | none => none
    | some (x, rest) =>
      match skipBetween rest with
      | some (']' :: rest) => some ([x], rest)
      | some (',' :: rest) =>
        match skipBetween rest with
        | some (']' :: rest) => some ([x], rest)
        | some rest => (readItems fuel depth rest).map fun (xs, rest) => (x :: xs, rest)
        | none => none
      | _ => none

def readFields : Nat → Nat → Entries → List Char → Reading Entries
  | 0, _, _, _ => none
  | fuel + 1, depth, seen, cs =>
    match readKey cs with
    | none => none
    | some (key, rest) =>
      match (readEquals rest).bind (readValue fuel depth) with
      | none => none
      | some (value, rest) =>
        match seen.define value key, skipSpace rest with
        | some seen, '\x7d' :: rest => some (seen, rest)
        | some seen, ',' :: rest => readFields fuel depth seen rest
        | _, _ => none

end

def readHeader (d : Document) (cs : List Char) : Reading Document :=
  match cs with
  | '[' :: '[' :: rest =>
    match readKey rest with
    | some (path, ']' :: ']' :: rest) =>
      match d.openElement path, readTrailing? rest with
      | some d, some rest => some (d, rest)
      | _, _ => none
    | _ => none
  | '[' :: rest =>
    match readKey rest with
    | some (path, ']' :: rest) =>
      match d.openTable path, readTrailing? rest with
      | some d, some rest => some (d, rest)
      | _, _ => none
    | _ => none
  | _ => none

def readDefinition (d : Document) (cs : List Char) : Reading Document :=
  match readKey cs with
  | none => none
  | some (key, rest) =>
    match (readEquals rest).bind fun rest => readValue (rest.length + 1) (depthLimit - 1) rest with
    | none => none
    | some (value, rest) =>
      match d.define key value, readTrailing? rest with
      | some d, some rest => some (d, rest)
      | _, _ => none

def readDocument : Nat → Document → List Char → Option Document
  | 0, _, _ => none
  | fuel + 1, d, cs =>
    match skipSpace cs with
    | [] => some d
    | '#' :: rest => (readTrailing? ('#' :: rest)).bind (readDocument fuel d)
    | '\n' :: rest => readDocument fuel d rest
    | '\r' :: rest => (readNewline? ('\r' :: rest)).bind (readDocument fuel d)
    | '[' :: rest => (readHeader d ('[' :: rest)).bind fun (d, rest) => readDocument fuel d rest
    | cs => (readDefinition d cs).bind fun (d, rest) => readDocument fuel d rest

/-- The table that a whole text stands for. A byte order mark before it does not count. -/
def read (text : String) : Option Toml :=
  let cs :=
    match text.toList with
    | '\ufeff' :: rest => rest
    | cs => cs
  (readDocument (cs.length + 1) {} cs).map Document.toToml

end ContentConsole.Toml
