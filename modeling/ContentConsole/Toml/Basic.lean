import ContentConsole.Decimal.Binary64

set_option autoImplicit false
set_option relaxedAutoImplicit false

/-! Values of a TOML document, and the characters that its parts admit. -/
namespace ContentConsole

inductive Toml
  | text (s : String)
  | integer (n : Int)
  | float (x : Decimal.Binary64)
  | boolean (b : Bool)
  /-- A date, a time or both, as written. -/
  | moment (written : String)
  | array (items : List Toml)
  | table (entries : List (String × Toml))
deriving Repr, Inhabited

namespace Toml

abbrev Reading (α : Type) := Option (α × List Char)

def isSpace (c : Char) : Bool := c = ' ' || c = '\t'

def skipSpace (cs : List Char) : List Char := cs.dropWhile isSpace

/-- Everything but control characters; the tab is none of them. -/
def isPrintable (c : Char) : Bool := c = '\t' || (0x20 ≤ c.toNat && c.toNat ≠ 0x7F)

def isBareKey (c : Char) : Bool :=
  ('a' ≤ c && c ≤ 'z') || ('A' ≤ c && c ≤ 'Z') || ('0' ≤ c && c ≤ '9') || c = '_' || c = '-'

/-- Passes over one line end: a line feed, alone or behind a carriage return. -/
def readNewline? : List Char → Option (List Char)
  | '\n' :: rest => some rest
  | '\r' :: '\n' :: rest => some rest
  | _ => none

def readLineEnd? (cs : List Char) : Option (List Char) :=
  if cs.isEmpty then some [] else readNewline? cs

def skipComment : List Char → List Char
  | '#' :: rest => rest.dropWhile isPrintable
  | cs => cs

def readTrailing? (cs : List Char) : Option (List Char) := readLineEnd? (skipComment (skipSpace cs))

end Toml

end ContentConsole
