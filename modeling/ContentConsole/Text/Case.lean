import ContentConsole.Text.CaseTable

set_option autoImplicit false
set_option relaxedAutoImplicit false

/-! Case properties and full case mappings of characters and texts. -/
namespace ContentConsole.Text

private def inRun (n : Nat) (row : Nat × Nat × Nat) : Bool :=
  row.1 ≤ n && n ≤ row.2.1 && (n - row.1) % row.2.2 == 0

private def shifted (rows : List (Nat × Nat × Nat × Int)) (n : Nat) : Option Nat :=
  rows.findSome? fun (first, last, step, offset) =>
    if inRun n (first, last, step) then some (n + offset).toNat else none

def isAsciiUpper (c : Char) : Bool := 'A' ≤ c && c ≤ 'Z'

def isAsciiLower (c : Char) : Bool := 'a' ≤ c && c ≤ 'z'

def isUpper (c : Char) : Bool :=
  if c.toNat < 0x80 then isAsciiUpper c else CaseTable.uppercase.any (inRun c.toNat)

def isLower (c : Char) : Bool :=
  if c.toNat < 0x80 then isAsciiLower c else CaseTable.lowercase.any (inRun c.toNat)

/-- A letter that takes part in case: upper, lower or title case. -/
def isCased (c : Char) : Bool :=
  isUpper c || isLower c || CaseTable.titlecase.any (inRun c.toNat)

def isCaseIgnorable (c : Char) : Bool := CaseTable.caseIgnorable.any (inRun c.toNat)

def upperChars (c : Char) : List Char :=
  if c.toNat < 0x80 then [c.toUpper]
  else
    match CaseTable.upperExpansion.lookup c.toNat with
    | some ns => ns.map Char.ofNat
    | none =>
      match shifted CaseTable.toUpper c.toNat with
      | some n => [Char.ofNat n]
      | none => [c]

/-- The lower-case image of a character outside any context. -/
def lowerChars (c : Char) : List Char :=
  if c.toNat < 0x80 then [c.toLower]
  else if c.toNat = 0x130 then ['i', '\u0307']
  else
    match shifted CaseTable.toLower c.toNat with
    | some n => [Char.ofNat n]
    | none => [c]

private def nextIsCased (cs : List Char) : Bool :=
  match cs.dropWhile isCaseIgnorable with
  | [] => false
  | c :: _ => isCased c

/--
Lower case of a text whose characters before `cs` are `before`, last one first. A capital sigma that
ends a word becomes the final small sigma.
-/
private def lowerFrom (before : List Char) : List Char → List Char
  | [] => []
  | c :: cs =>
    if c = 'Σ' then
      (if nextIsCased before && !nextIsCased cs then 'ς' else 'σ') :: lowerFrom (c :: before) cs
    else lowerChars c ++ lowerFrom (c :: before) cs

def lower (s : String) : String := String.ofList (lowerFrom [] s.toList)

def lowerAscii (s : String) : String := s.map Char.toLower

end ContentConsole.Text
