import ContentConsole.Json.Syntax

set_option autoImplicit false
set_option relaxedAutoImplicit false

/-!
Reading JSON text. Arrays and objects nest at most `maxDepth` deep; a repeated key of an object
keeps its place and takes the later value.
-/
namespace ContentConsole.Json

open Text (isDigit)

def maxDepth : Nat := 127

private def readNumber (isNegative : Bool) (cs : List Char) : Reading Json :=
  match readNumeral isNegative cs with
  | .error e => .error e
  | .ok (t, rest) =>
    match t.value? with
    | some n => .ok (.number n, rest)
    | none => refuse .numberOutOfRange rest

def readKey (cs : List Char) : Reading String :=
  match cs with
  | '"' :: rest =>
    match readText rest with
    | .error e => .error e
    | .ok (key, rest) =>
      match skipSpace rest with
      | ':' :: rest => .ok (String.ofList key, rest)
      | [] => refuse .endInObject []
      | rest => refuseAt .expectedColon rest
  | rest => refuseAt .keyNotText rest

/-- Passes over the comma before a further item, or over the closing bracket.
`true` means one more item. -/
def nextItem (cs : List Char) : Reading Bool :=
  match skipSpace cs with
  | [] => refuse .endInList []
  | ']' :: rest => .ok (false, rest)
  | ',' :: rest =>
    match skipSpace rest with
    | [] => refuse .endInValue []
    | ']' :: rest => refuseAt .trailingComma (']' :: rest)
    | rest => .ok (true, rest)
  | rest => refuseAt .expectedCommaOrBracket rest

def nextField (cs : List Char) : Reading Bool :=
  match skipSpace cs with
  | [] => refuse .endInObject []
  | '\x7d' :: rest => .ok (false, rest)
  | ',' :: rest =>
    match skipSpace rest with
    | [] => refuse .endInValue []
    | '\x7d' :: rest => refuseAt .trailingComma ('\x7d' :: rest)
    | rest => .ok (true, rest)
  | rest => refuseAt .expectedCommaOrBrace rest

mutual

/--
Reads one value. `depth` brackets may still be opened. The fuel bounds the recursion; each step
reads a character, so the length of the text is enough.
-/
def readValue : Nat → Nat → List Char → Reading Json
  | 0, _, cs => refuse .expectedValue cs
  | fuel + 1, depth, cs =>
    match skipSpace cs with
    | [] => refuse .endInValue []
    | 'n' :: rest => readWord .null ['u', 'l', 'l'] rest
    | 't' :: rest => readWord (.bool true) ['r', 'u', 'e'] rest
    | 'f' :: rest => readWord (.bool false) ['a', 'l', 's', 'e'] rest
    | '-' :: rest => readNumber true rest
    | '"' :: rest =>
      match readText rest with
      | .ok (s, rest) => .ok (.str (String.ofList s), rest)
      | .error e => .error e
    | '[' :: rest =>
      match depth with
      | 0 => refuseAt .tooDeep ('[' :: rest)
      | depth + 1 =>
        match skipSpace rest with
        | [] => refuse .endInList []
        | ']' :: rest => .ok (.arr [], rest)
        | rest =>
          match readItems fuel depth rest with
          | .ok (items, rest) => .ok (.arr items, rest)
          | .error e => .error e
    | '\x7b' :: rest =>
      match depth with
      | 0 => refuseAt .tooDeep ('\x7b' :: rest)
      | depth + 1 =>
        match skipSpace rest with
        | [] => refuse .endInObject []
        | '\x7d' :: rest => .ok (.obj [], rest)
        | rest =>
          match readFields fuel depth [] rest with
          | .ok (fields, rest) => .ok (.obj fields, rest)
          | .error e => .error e
    | c :: rest =>
      if isDigit c then readNumber false (c :: rest) else refuseAt .expectedValue (c :: rest)

def readItems : Nat → Nat → List Char → Reading (List Json)
  | 0, _, cs => refuse .expectedValue cs
  | fuel + 1, depth, cs =>
    match readValue fuel depth cs with
    | .error e => .error e
    | .ok (x, rest) =>
      match nextItem rest with
      | .error e => .error e
      | .ok (false, rest) => .ok ([x], rest)
      | .ok (true, rest) =>
        match readItems fuel depth rest with
        | .error e => .error e
        | .ok (xs, rest) => .ok (x :: xs, rest)

def readFields : Nat → Nat → Record → List Char → Reading Record
  | 0, _, _, cs => refuse .expectedValue cs
  | fuel + 1, depth, seen, cs =>
    match readKey cs with
    | .error e => .error e
    | .ok (key, rest) =>
      match readValue fuel depth rest with
      | .error e => .error e
      | .ok (value, rest) =>
        match nextField rest with
        | .error e => .error e
        | .ok (false, rest) => .ok (seen.put key value, rest)
        | .ok (true, rest) => readFields fuel depth (seen.put key value) rest

end

private def skipNumber (isNegative : Bool) (cs : List Char) : Reading Unit :=
  match readNumeral isNegative cs with
  | .error e => .error e
  | .ok (_, rest) => .ok ((), rest)

def skipKey (cs : List Char) : Reading Unit :=
  match cs with
  | '"' :: rest =>
    match skipText rest with
    | .error e => .error e
    | .ok ((), rest) =>
      match skipSpace rest with
      | ':' :: rest => .ok ((), rest)
      | [] => refuse .endInObject []
      | rest => refuseAt .expectedColon rest
  | rest => refuseAt .keyNotText rest

mutual

/-- Passes over one value whose contents are not wanted, at any depth and of any size. -/
def skipValue : Nat → List Char → Reading Unit
  | 0, cs => refuse .expectedValue cs
  | fuel + 1, cs =>
    match skipSpace cs with
    | [] => refuse .endInValue []
    | 'n' :: rest => readWord () ['u', 'l', 'l'] rest
    | 't' :: rest => readWord () ['r', 'u', 'e'] rest
    | 'f' :: rest => readWord () ['a', 'l', 's', 'e'] rest
    | '-' :: rest => skipNumber true rest
    | '"' :: rest => skipText rest
    | '[' :: rest =>
      match skipSpace rest with
      | [] => refuse .endInList []
      | ']' :: rest => .ok ((), rest)
      | rest => skipItems fuel rest
    | '\x7b' :: rest =>
      match skipSpace rest with
      | [] => refuse .endInObject []
      | '\x7d' :: rest => .ok ((), rest)
      | rest => skipFields fuel rest
    | c :: rest =>
      if isDigit c then skipNumber false (c :: rest) else refuseAt .expectedValue (c :: rest)

def skipItems : Nat → List Char → Reading Unit
  | 0, cs => refuse .expectedValue cs
  | fuel + 1, cs =>
    match skipValue fuel cs with
    | .error e => .error e
    | .ok ((), rest) =>
      match nextItem rest with
      | .error e => .error e
      | .ok (false, rest) => .ok ((), rest)
      | .ok (true, rest) => skipItems fuel rest

def skipFields : Nat → List Char → Reading Unit
  | 0, cs => refuse .expectedValue cs
  | fuel + 1, cs =>
    match skipKey cs with
    | .error e => .error e
    | .ok ((), rest) =>
      match skipValue fuel rest with
      | .error e => .error e
      | .ok ((), rest) =>
        match nextField rest with
        | .error e => .error e
        | .ok (false, rest) => .ok ((), rest)
        | .ok (true, rest) => skipFields fuel rest

end

def readChars (cs : List Char) : Except SyntaxError Json :=
  match readValue (cs.length + 1) maxDepth cs with
  | .error e => .error e
  | .ok (j, rest) =>
    match skipSpace rest with
    | [] => .ok j
    | rest => (refuseAt .trailingCharacters rest : Reading Json).map Prod.fst

def read (text : String) : Except SyntaxError Json := readChars text.toList

end ContentConsole.Json
