import ContentConsole.Json.Writer
import ContentConsole.Text.Quoted

set_option autoImplicit false
set_option relaxedAutoImplicit false

/-! The shape of a JSON value, and the ways in which a value fails to have the shape asked for. -/
namespace ContentConsole.Json

/-- How a diagnostic names a value that was found. -/
def shape : Json → String
  | .null => "null"
  | .bool true => "boolean `true`"
  | .bool false => "boolean `false`"
  | .number (.int n) => s!"integer `{String.ofList (writeInt n)}`"
  | .number (.double x) => s!"floating point `{String.ofList (x.write doubleLayout)}`"
  | .str s => s!"string {Text.quoted s}"
  | .arr _ => "sequence"
  | .obj _ => "map"

inductive ShapeError
  | wrongType (found : Json) (expected : String)
  | missingField (name : String)
  | unknownVariant (name : String) (known : List String)
  | notOneKey
  | tooShort (length : Nat) (expected : String)
  | tooLong (length : Nat)
deriving Repr

def ShapeError.message : ShapeError → String
  | .wrongType found expected => s!"invalid type: {found.shape}, expected {expected}"
  | .missingField name => s!"missing field `{name}`"
  | .unknownVariant name known =>
    let options := ", ".intercalate (known.map fun k => s!"`{k}`")
    s!"unknown variant `{name}`, expected one of {options}"
  | .notOneKey => "invalid value: map, expected map with a single key"
  | .tooShort length expected => s!"invalid length {length}, expected {expected}"
  | .tooLong length => s!"invalid length {length}, expected fewer elements in array"

def asText : Json → Except ShapeError String
  | .str s => .ok s
  | j => .error (.wrongType j "a string")

def asOptionalText : Json → Except ShapeError (Option String)
  | .null => .ok none
  | .str s => .ok (some s)
  | j => .error (.wrongType j "a string")

end ContentConsole.Json
