import ContentConsole.Decimal.Binary64

set_option autoImplicit false
set_option relaxedAutoImplicit false

/-! JSON values. An object keeps its keys in the order written. -/
namespace ContentConsole

/-- An integer that fits 64 bits with or without sign, or a finite double. -/
inductive Number
  | int (n : Int)
  | double (x : Decimal.Binary64)
deriving DecidableEq, Repr

inductive Json
  | null
  | bool (b : Bool)
  | number (n : Number)
  | str (s : String)
  | arr (items : List Json)
  | obj (fields : List (String × Json))
deriving Repr, Inhabited

/-- An object on its own: keys in order, each once. -/
abbrev Record := List (String × Json)

namespace Record

/-- A new key goes to the end; a present one keeps its place and takes the new value. -/
def put (key : String) (value : Json) : Record → Record
  | [] => [(key, value)]
  | (k, v) :: rest => if k = key then (k, value) :: rest else (k, v) :: put key value rest

def get? (r : Record) (key : String) : Option Json := r.lookup key

end Record

namespace Json

def get? : Json → String → Option Json
  | .obj fields, key => Record.get? fields key
  | _, _ => none

end Json

end ContentConsole
