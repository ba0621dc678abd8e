import ContentConsole.Text.HiddenTable

set_option autoImplicit false
set_option relaxedAutoImplicit false

/-! Texts in double quotes, as diagnostics show them: every character is visible or escaped. -/
namespace ContentConsole.Text

/-- A character that is shown by its number because it has no visible shape of its own. -/
def isHidden (c : Char) : Bool :=
  if c.toNat < 0x80 then c.toNat < 0x20 || c.toNat = 0x7F
  else HiddenTable.rows.any fun (first, last) => first ≤ c.toNat && c.toNat ≤ last

def hexDigits (n : Nat) : List Char := Nat.toDigits 16 n

def quotedChar (c : Char) : List Char :=
  if c = '"' then ['\\', '"']
  else if c = '\\' then ['\\', '\\']
  else if c = '\n' then ['\\', 'n']
  else if c = '\r' then ['\\', 'r']
  else if c = '\t' then ['\\', 't']
  else if c = '\x00' then ['\\', '0']
  else if isHidden c then ['\\', 'u', '\x7b'] ++ hexDigits c.toNat ++ ['\x7d']
  else [c]

def quoted (s : String) : String :=
  String.ofList ('"' :: s.toList.flatMap quotedChar ++ ['"'])

/-- The path of a file in quotes; a single quote is escaped too. -/
def quotedPath (s : String) : String :=
  String.ofList
    ('"' :: s.toList.flatMap (fun c => if c = '\'' then ['\\', '\''] else quotedChar c) ++ ['"'])

end ContentConsole.Text
