import ContentConsole.Text.Basic
import ContentConsole.Toml.Basic

set_option autoImplicit false
set_option relaxedAutoImplicit false

/-!
Strings of a TOML document: in double quotes with escapes or in single quotes as they stand, both
also over several lines in triple quotes. Each reader starts behind the opening quotes.
-/
namespace ContentConsole.Toml

open Text (isHexDigit hexDigitsValue)

def consChar (c : Char) : Reading (List Char) → Reading (List Char)
  | some (cs, rest) => some (c :: cs, rest)
  | none => none

def shortEscape (c : Char) : Option Char :=
  if c = 'b' then some '\x08'
  else if c = 't' then some '\t'
  else if c = 'n' then some '\n'
  else if c = 'f' then some '\x0c'
  else if c = 'r' then some '\r'
  else if c = '"' then some '"'
  else if c = '\\' then some '\\'
  else none

def numberedChar (digits : List Char) : Option Char :=
  let n := hexDigitsValue digits
  if !digits.all isHexDigit then none
  else if h : n.isValidChar then some (Char.ofNatAux n h)
  else none

def readBasic : List Char → Reading (List Char)
  | [] => none
  | '"' :: rest => some ([], rest)
  | '\\' :: 'u' :: a :: b :: c :: d :: rest =>
    match numberedChar [a, b, c, d] with
    | some x => consChar x (readBasic rest)
    | none => none
  | '\\' :: 'U' :: a :: b :: c :: d :: e :: f :: g :: h :: rest =>
    match numberedChar [a, b, c, d, e, f, g, h] with
    | some x => consChar x (readBasic rest)
    | none => none
  | '\\' :: c :: rest =>
    match shortEscape c with
    | some x => consChar x (readBasic rest)
    | none => none
  | c :: rest => if isPrintable c then consChar c (readBasic rest) else none

def readLiteral : List Char → Reading (List Char)
  | [] => none
  | '\'' :: rest => some ([], rest)
  | c :: rest => if isPrintable c then consChar c (readLiteral rest) else none

def endsLine (cs : List Char) : Bool := (readNewline? (skipSpace cs)).isSome

/--
Reads a string in double quotes over several lines. Up to two quotes may stand before the
closing ones. While `trims` holds, white space and line ends are passed over: they follow
a backslash that ends its line.
-/
def readLines (trims : Bool) : List Char → Reading (List Char)
  | [] => none
  | '"' :: '"' :: '"' :: '"' :: '"' :: rest => some (['"', '"'], rest)
  | '"' :: '"' :: '"' :: '"' :: rest => some (['"'], rest)
  | '"' :: '"' :: '"' :: rest => some ([], rest)
  | '\n' :: rest => if trims then readLines true rest else consChar '\n' (readLines false rest)
  | '\r' :: '\n' :: rest =>
    if trims then readLines true rest else consChar '\n' (readLines false rest)
  | '\\' :: 'u' :: a :: b :: c :: d :: rest =>
    match numberedChar [a, b, c, d] with
    | some x => consChar x (readLines false rest)
    | none => none
  | '\\' :: 'U' :: a :: b :: c :: d :: e :: f :: g :: h :: rest =>
    match numberedChar [a, b, c, d, e, f, g, h] with
    | some x => consChar x (readLines false rest)
    | none => none
  | '\\' :: c :: rest =>
    match shortEscape c with
    | some x => consChar x (readLines false rest)
    | none => if endsLine (c :: rest) then readLines true (c :: rest) else none
  | c :: rest =>
    if trims && isSpace c then readLines true rest
    else if isPrintable c then consChar c (readLines false rest)
    else none

def readLiteralLines : List Char → Reading (List Char)
  | [] => none
  | '\'' :: '\'' :: '\'' :: '\'' :: '\'' :: rest => some (['\'', '\''], rest)
  | '\'' :: '\'' :: '\'' :: '\'' :: rest => some (['\''], rest)
  | '\'' :: '\'' :: '\'' :: rest => some ([], rest)
  | '\n' :: rest => consChar '\n' (readLiteralLines rest)
  | '\r' :: '\n' :: rest => consChar '\n' (readLiteralLines rest)
  | c :: rest => if isPrintable c then consChar c (readLiteralLines rest) else none

def dropFirstNewline (cs : List Char) : List Char := (readNewline? cs).getD cs

def readText : List Char → Reading String
  | '"' :: '"' :: '"' :: rest =>
    (readLines false (dropFirstNewline rest)).map (Prod.map String.ofList id)
  | '"' :: rest => (readBasic rest).map (Prod.map String.ofList id)
  | '\'' :: '\'' :: '\'' :: rest =>
    (readLiteralLines (dropFirstNewline rest)).map (Prod.map String.ofList id)
  | '\'' :: rest => (readLiteral rest).map (Prod.map String.ofList id)
  | _ => none

/-! ## Writing -/

def longestRun (x : Char) (run best : Nat) : List Char → Nat
  | [] => best
  | c :: cs =>
    if c = x then longestRun x (run + 1) (max best (run + 1)) cs else longestRun x 0 best cs

def isControl (c : Char) : Bool :=
  (c.toNat < 0x20 && c ≠ '\t' && c ≠ '\n') || c.toNat = 0x7F

def hexDigit (n : Nat) : Char := (Nat.digitChar n).toUpper

/-- What stands for a character between double quotes; `quotes` counts
the quotes right before it. -/
def escaped (isLong : Bool) (quotes : Nat) (c : Char) : List Char :=
  if c = '"' then if isLong && quotes < 2 then ['"'] else ['\\', '"']
  else if c = '\\' then ['\\', '\\']
  else if c = '\x08' then ['\\', 'b']
  else if c = '\t' then ['\\', 't']
  else if c = '\n' then if isLong then ['\n'] else ['\\', 'n']
  else if c = '\x0c' then ['\\', 'f']
  else if c = '\r' then ['\\', 'r']
  else if c.toNat < 0x20 || c.toNat = 0x7F then
    ['\\', 'u', '0', '0', hexDigit (c.toNat / 16), hexDigit (c.toNat % 16)]
  else [c]

/-- Writes the characters between double quotes; a quote that was escaped does not count as one. -/
def writeBetween (isLong : Bool) (quotes : Nat) : List Char → List Char
  | [] => []
  | c :: cs =>
    let isPlainQuote := c = '"' && isLong && quotes < 2
    escaped isLong quotes c ++ writeBetween isLong (if isPlainQuote then quotes + 1 else 0) cs

def triple (c : Char) : List Char := [c, c, c]

/--
Writes a string in the first of these ways that needs no escape: double quotes, single quotes,
triple double quotes, triple single quotes; and with escapes if there is none. In triple quotes a
line end follows the opening ones when the string has several lines.
-/
def writeText (s : String) : List Char :=
  let cs := s.toList
  let singles := longestRun '\'' 0 0 cs
  let doubles := longestRun '"' 0 0 cs
  let hasControl := cs.any isControl
  let hasBackslash := cs.contains '\\'
  let hasNewline := cs.contains '\n'
  let lead : List Char := if hasNewline then ['\n'] else []
  let basic := '"' :: writeBetween false 0 cs ++ ['"']
  let lines := triple '"' ++ lead ++ writeBetween true 0 cs ++ triple '"'
  if !hasControl && !hasBackslash && doubles = 0 && !hasNewline then basic
  else if !hasControl && singles = 0 && !hasNewline then '\'' :: cs ++ ['\'']
  else if !hasControl && !hasBackslash && doubles ≤ 2 then lines
  else if !hasControl && singles ≤ 2 then triple '\'' ++ lead ++ cs ++ triple '\''
  else if hasNewline then lines
  else basic

end ContentConsole.Toml
