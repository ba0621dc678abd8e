import ContentConsole.Text.Basic
import ContentConsole.Text.Case
import ContentConsole.Url.Punycode

set_option autoImplicit false
set_option relaxedAutoImplicit false

/-!
Domain names in the form they are sent: small ASCII letters, all other letters in Punycode. Letters
with marks are expected in their composed form.
-/
namespace ContentConsole.Url.Domain

/--
A character that no domain name holds: white space, a control, one for private use, or
a sign with a meaning in URLs.
-/
def isForbidden (c : Char) : Bool :=
  c.toNat ≤ 0x20 || Text.isBlank c || (0x7F ≤ c.toNat && c.toNat ≤ 0x9F) || c = '\uFFFD' ||
    (0xE000 ≤ c.toNat && c.toNat ≤ 0xF8FF) || 0xF0000 ≤ c.toNat ||
    ['%', '#', '/', ':', '<', '>', '?', '@', '[', '\\', ']', '^', '|'].contains c

/-- Characters that a domain name is read without: joiners, selectors of shapes and fillers. -/
private def ignored : List (Nat × Nat) :=
  [(0xAD, 0xAD), (0x34F, 0x34F), (0x115F, 0x1160), (0x17B4, 0x17B5), (0x180B, 0x180F),
    (0x200B, 0x200B), (0x2060, 0x2064), (0x206A, 0x206F), (0x3164, 0x3164), (0xFE00, 0xFE0F),
    (0xFEFF, 0xFEFF), (0xFFA0, 0xFFA0), (0x1BCA0, 0x1BCA3), (0x1D173, 0x1D17A), (0xE0100, 0xE01EF)]

private def stops : List Char := ['\u3002', '\uff61']

private def folded (c : Char) : List Char :=
  if ignored.any fun (first, last) => first ≤ c.toNat && c.toNat ≤ last then []
  else if stops.contains c then ['.']
  else if 0xFF01 ≤ c.toNat && c.toNat ≤ 0xFF5E then Text.lowerChars (Char.ofNat (c.toNat - 0xFEE0))
  else Text.lowerChars c

private def isAscii (c : Char) : Bool := c.toNat < 0x80

private def mark : List Char := ['x', 'n', '-', '-']

/-- A label in Punycode must read as a small one, and must hold what Punycode is needed for. -/
private def isSound (label : List Char) : Bool :=
  if mark.isPrefixOf label then
    match Punycode.decode (label.drop 4) with
    | some cs => cs.flatMap folded = cs && !cs.any isForbidden && !cs.all isAscii
    | none => false
  else true

private def labelToAscii (label : List Char) : Option (List Char) :=
  if label.all isAscii then if isSound label then some label else none
  else some (mark ++ Punycode.encode label)

/-- The form of a domain name that is sent; none if it is no domain name. -/
def toAscii? (cs : List Char) : Option (List Char) :=
  let small := cs.flatMap folded
  if small.any isForbidden then none
  else ((small.splitOn '.').mapM labelToAscii).map fun labels => ['.'].intercalate labels

end ContentConsole.Url.Domain
