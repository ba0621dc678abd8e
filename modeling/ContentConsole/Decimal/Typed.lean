import ContentConsole.Decimal.Binary64
import ContentConsole.Text.Basic

set_option autoImplicit false
set_option relaxedAutoImplicit false

/-!
Numbers as people type them: a sign of either kind, digits with a point anywhere
among them, and a power of ten.
-/
namespace ContentConsole.Decimal

open Text (isDigit digitsValue)

/-- Takes a sign off the front; `true` stands for a minus. -/
def takeSign : List Char → Bool × List Char
  | '-' :: cs => (true, cs)
  | '+' :: cs => (false, cs)
  | cs => (false, cs)

def typedInteger? (cs : List Char) : Option Int :=
  let (minus, ds) := takeSign cs
  if ds.isEmpty || !ds.all isDigit then none
  else
    let n : Int := if minus then -(digitsValue ds : Int) else digitsValue ds
    if -Int.pow 2 63 ≤ n && n < Int.pow 2 63 then some n else none

/-- The power of ten at the end of a number: nothing, or a mark with
digits behind an optional sign. -/
private def typedPower? : List Char → Option Int
  | [] => some 0
  | mark :: cs =>
    let (minus, ds) := takeSign cs
    if (mark = 'e' || mark = 'E') && !ds.isEmpty && ds.all isDigit then
      some (if minus then -(digitsValue ds : Int) else digitsValue ds)
    else none

/-- The double nearest to a number with at least one digit before its
power of ten, if it is finite. -/
def typedDouble? (cs : List Char) : Option Binary64 :=
  let (minus, cs) := takeSign cs
  let whole := cs.takeWhile isDigit
  let rest := cs.dropWhile isDigit
  let (fraction, rest) :=
    match rest with
    | '.' :: rest => (rest.takeWhile isDigit, rest.dropWhile isDigit)
    | rest => ([], rest)
  if whole.isEmpty && fraction.isEmpty then none
  else
    match typedPower? rest with
    | none => none
    | some power =>
      let n := Binary64.ofDecimal (digitsValue (whole ++ fraction)) (power - fraction.length)
      if n < Binary64.infinite then some (Binary64.ofMagnitude minus n) else none

end ContentConsole.Decimal
