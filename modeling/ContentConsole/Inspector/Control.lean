import ContentConsole.Decimal.Typed
import ContentConsole.Json.Writer
import ContentConsole.Text.Basic

set_option autoImplicit false
set_option relaxedAutoImplicit false

/-! The control that shows a property's value, and the value that
leaving the control writes back. -/
namespace ContentConsole

inductive Control
  /-- A text input with its draft. -/
  | input (draft : String)
  | switch (isOn : Bool)
  /-- Text that cannot be edited. -/
  | text (shown : String)
deriving DecidableEq, Repr, Inhabited

namespace Control

def isEditable : Control → Bool
  | .input _ | .switch _ => true
  | .text _ => false

def shown : Control → String
  | .input s | .text s => s
  | .switch true => "on"
  | .switch false => "off"

/-- Keys that are shown and never edited. -/
def lockedKeys : List String := ["id", "type"]

def ofValue (value : Json) : Control :=
  match value with
  | .null => .input ""
  | .str s => .input s
  | .number n => .input (String.ofList (Json.writeNumber n))
  | .bool b => .switch b
  | .arr _ | .obj _ => .text value.compact

/-- The control for a property; under a locked key it is plain text. -/
def ofProperty (key : String) (value : Json) : Control :=
  if lockedKeys.contains key then .text (ofValue value).shown else ofValue value

end Control

/--
The value that a typed text stands for in the place of a fetched value. A number stays a number as
long as the text reads as one, and nothing typed into an absent value leaves it absent.
-/
def Json.retyped (fetched : Json) (text : String) : Json :=
  match fetched with
  | .number _ =>
    let cs := (Text.trim text).toList
    match Decimal.typedInteger? cs, Decimal.typedDouble? cs with
    | some n, _ => .number (.int n)
    | none, some x => .number (.double x)
    | none, none => .str text
  | .null => if text.isEmpty then .null else .str text
  | _ => .str text

end ContentConsole
