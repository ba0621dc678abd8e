import ContentConsole.Json.Basic
import ContentConsole.Decimal.Notation

set_option autoImplicit false
set_option relaxedAutoImplicit false

/-! Compact and indented JSON text. -/
namespace ContentConsole.Json

/-- Doubles are positional from `0.00001` up to, not including, `10^16`. -/
def doubleLayout : Decimal.Layout := ⟨-5, 16⟩

def writeInt (n : Int) : List Char :=
  if n < 0 then '-' :: Nat.toDigits 10 n.natAbs else Nat.toDigits 10 n.natAbs

def writeNumber : Number → List Char
  | .int n => writeInt n
  | .double x => x.write doubleLayout

def escaped (c : Char) : List Char :=
  if c = '"' then ['\\', '"']
  else if c = '\\' then ['\\', '\\']
  else if c = '\n' then ['\\', 'n']
  else if c = '\r' then ['\\', 'r']
  else if c = '\t' then ['\\', 't']
  else if c = '\x08' then ['\\', 'b']
  else if c = '\x0c' then ['\\', 'f']
  else if c.toNat < 0x20 then
    ['\\', 'u', '0', '0', Nat.digitChar (c.toNat / 16), Nat.digitChar (c.toNat % 16)]
  else [c]

def writeText (s : List Char) : List Char := '"' :: s.flatMap escaped ++ ['"']

mutual

def writeChars : Json → List Char
  | .null => ['n', 'u', 'l', 'l']
  | .bool true => ['t', 'r', 'u', 'e']
  | .bool false => ['f', 'a', 'l', 's', 'e']
  | .number n => writeNumber n
  | .str s => writeText s.toList
  | .arr items => '[' :: writeItems items ++ [']']
  | .obj fields => '\x7b' :: writeFields fields ++ ['\x7d']

def writeItems : List Json → List Char
  | [] => []
  | [x] => writeChars x
  | x :: xs => writeChars x ++ ',' :: writeItems xs

def writeFields : List (String × Json) → List Char
  | [] => []
  | [(k, v)] => writeText k.toList ++ ':' :: writeChars v
  | (k, v) :: rest => writeText k.toList ++ ':' :: writeChars v ++ ',' :: writeFields rest

end

def compact (j : Json) : String := String.ofList j.writeChars

def newLine (depth : Nat) : List Char := '\n' :: List.replicate (2 * depth) ' '

mutual

/-- Text with one item or field on each line; `depth` counts the open brackets. -/
def prettyChars (depth : Nat) : Json → List Char
  | .arr [] => ['[', ']']
  | .arr (x :: xs) => '[' :: prettyItems (depth + 1) (x :: xs) ++ newLine depth ++ [']']
  | .obj [] => ['\x7b', '\x7d']
  | .obj (x :: xs) => '\x7b' :: prettyFields (depth + 1) (x :: xs) ++ newLine depth ++ ['\x7d']
  | .null => writeChars .null
  | .bool b => writeChars (.bool b)
  | .number n => writeChars (.number n)
  | .str s => writeChars (.str s)

def prettyItems (depth : Nat) : List Json → List Char
  | [] => []
  | [x] => newLine depth ++ prettyChars depth x
  | x :: xs => newLine depth ++ prettyChars depth x ++ ',' :: prettyItems depth xs

def prettyFields (depth : Nat) : List (String × Json) → List Char
  | [] => []
  | [(k, v)] => newLine depth ++ writeText k.toList ++ ':' :: ' ' :: prettyChars depth v
  | (k, v) :: rest =>
    newLine depth ++ writeText k.toList ++ ':' :: ' ' :: prettyChars depth v ++
      ',' :: prettyFields depth rest

end

def pretty (j : Json) : String := String.ofList (j.prettyChars 0)

end ContentConsole.Json
