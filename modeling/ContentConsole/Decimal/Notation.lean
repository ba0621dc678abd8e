import ContentConsole.Decimal.Shortest

set_option autoImplicit false
set_option relaxedAutoImplicit false

/-! Decimal text of doubles: positional inside a range of exponents, scientific outside it. -/
namespace ContentConsole.Decimal

/-- The exponents of the leading digit that are written positionally. -/
structure Layout where
  positionalFrom : Int
  positionalBelow : Int

private def scientific (sign exponent : List Char) : List Char → List Char
  | [] => []
  | [d] => d :: 'e' :: sign ++ exponent
  | d :: ds => d :: '.' :: ds ++ 'e' :: sign ++ exponent

private def positional (ds : List Char) (point : Int) : List Char :=
  if point ≤ 0 then '0' :: '.' :: List.replicate (-point).toNat '0' ++ ds
  else if point.toNat < ds.length then ds.take point.toNat ++ '.' :: ds.drop point.toNat
  else ds ++ List.replicate (point.toNat - ds.length) '0' ++ ['.', '0']

/-- The text of a decimal without sign; an integral one keeps a `.0`, an exponent shows its sign. -/
def Digits.write (layout : Layout) (d : Digits) : List Char :=
  let ds := Nat.toDigits 10 d.digits
  let lead := d.exp + ds.length - 1
  if d.digits = 0 then ['0', '.', '0']
  else if layout.positionalFrom ≤ lead && lead < layout.positionalBelow then
    positional ds (lead + 1)
  else scientific [if lead < 0 then '-' else '+'] (Nat.toDigits 10 lead.natAbs) ds

def Binary64.write (layout : Layout) (x : Binary64) : List Char :=
  let body := (shortest x.magnitude).write layout
  if x.isNegative then '-' :: body else body

end ContentConsole.Decimal
