import ContentConsole.Text.Basic

set_option autoImplicit false
set_option relaxedAutoImplicit false

/-!
Percent encoding: characters outside a set stand as they are, and the bytes of all others as a
percent sign with two hexadecimal digits.
-/
namespace ContentConsole.Url

def percentByte (b : UInt8) : List Char :=
  ['%', (Nat.digitChar (b.toNat / 16)).toUpper, (Nat.digitChar (b.toNat % 16)).toUpper]

def percentEncode (isEncoded : Char → Bool) (cs : List Char) : List Char :=
  cs.flatMap fun c => if isEncoded c then (String.utf8EncodeChar c).flatMap percentByte else [c]

def isControl (c : Char) : Bool := c.toNat < 0x20 || 0x7F ≤ c.toNat

def inFragmentSet (c : Char) : Bool := isControl c || [' ', '"', '<', '>', '\x60'].contains c

def inPathSet (c : Char) : Bool := inFragmentSet c || ['#', '?', '\x7b', '\x7d'].contains c

def inUserSet (c : Char) : Bool :=
  inPathSet c || ['/', ':', ';', '=', '@', '[', '\\', ']', '^', '|'].contains c

def inQuerySet (isSpecial : Bool) (c : Char) : Bool :=
  isControl c || [' ', '"', '#', '<', '>'].contains c || (isSpecial && c = '\'')

private def isFormPlain (c : Char) : Bool :=
  ('a' ≤ c && c ≤ 'z') || ('A' ≤ c && c ≤ 'Z') || Text.isDigit c || ['*', '-', '.', '_'].contains c

/-- Encodes a name or a value of a form: a blank becomes a plus sign. -/
def formEncode (cs : List Char) : List Char :=
  cs.flatMap fun c => if c = ' ' then ['+'] else percentEncode (fun c => !isFormPlain c) [c]

def percentDecode : List Char → List UInt8
  | [] => []
  | '%' :: a :: b :: rest =>
    match Text.hexValue a, Text.hexValue b with
    | some x, some y => UInt8.ofNat (x * 16 + y) :: percentDecode rest
    | _, _ => String.utf8EncodeChar '%' ++ percentDecode (a :: b :: rest)
  | c :: rest => String.utf8EncodeChar c ++ percentDecode rest

end ContentConsole.Url
