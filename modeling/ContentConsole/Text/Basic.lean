set_option autoImplicit false
set_option relaxedAutoImplicit false

/-!
White space and the blank ends of a text; decimal and hexadecimal digits among the first 128
characters, and the numbers they stand for.
-/
namespace ContentConsole.Text

/-! ## White space -/

/-- White space in the sense of the character database, 25 characters. -/
def isBlank (c : Char) : Bool :=
  let n := c.toNat
  (9 ≤ n && n ≤ 13) || n == 0x20 || n == 0x85 || n == 0xA0 || n == 0x1680 ||
    (0x2000 ≤ n && n ≤ 0x200A) || n == 0x2028 || n == 0x2029 || n == 0x202F || n == 0x205F ||
    n == 0x3000

def trimStart (cs : List Char) : List Char := cs.dropWhile isBlank

def trimEnd (cs : List Char) : List Char := (cs.reverse.dropWhile isBlank).reverse

def trim (s : String) : String := String.ofList (trimEnd (trimStart s.toList))

def isBlankText (s : String) : Bool := s.toList.all isBlank

/-! ## Digits -/

def isDigit (c : Char) : Bool := '0' ≤ c && c ≤ '9'

def digitValue (c : Char) : Nat := c.toNat - 48

def digitsValue (cs : List Char) : Nat := cs.foldl (fun n c => n * 10 + digitValue c) 0

def hexValue (c : Char) : Option Nat :=
  if isDigit c then some (digitValue c)
  else if 'a' ≤ c && c ≤ 'f' then some (c.toNat - 87)
  else if 'A' ≤ c && c ≤ 'F' then some (c.toNat - 55)
  else none

def isHexDigit (c : Char) : Bool := (hexValue c).isSome

/-- The number that a list of hexadecimal digits stands for; other characters count as zero. -/
def hexDigitsValue (cs : List Char) : Nat := cs.foldl (fun n c => n * 16 + (hexValue c).getD 0) 0

end ContentConsole.Text
