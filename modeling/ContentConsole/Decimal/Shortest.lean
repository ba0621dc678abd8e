import ContentConsole.Decimal.Binary64

set_option autoImplicit false
set_option relaxedAutoImplicit false

/-!
The fewest decimal digits that read back to a double. A decimal reads back when it lies among the
reals that round to the double; for one digit, two digits and so on, only the double's two
neighbours on that decimal grid need to be tried.
-/
namespace ContentConsole.Decimal

/-- The number `digits · 10 ^ exp`. -/
structure Digits where
  digits : Nat
  exp : Int
deriving DecidableEq, Repr

/-- Half way to the magnitude below, as a numerator over `4 * (ratio n).2`. -/
private def lowerEnd (n : Nat) : Nat :=
  let gap := if n % Nat.pow 2 52 = 0 ∧ Nat.pow 2 53 ≤ n then 1 else 2
  (4 * Binary64.significand n - gap) * Nat.pow 2 (Binary64.exponent n).toNat

private def upperEnd (n : Nat) : Nat :=
  (4 * Binary64.significand n + 2) * Nat.pow 2 (Binary64.exponent n).toNat

/-- `d` rounds to the positive finite magnitude `n`: the ends belong to even significands only. -/
def readsBack (n : Nat) (d : Digits) : Bool :=
  let scaled := d.digits * Nat.pow 10 d.exp.toNat * (4 * (Binary64.ratio n).2)
  let low := lowerEnd n * Nat.pow 10 (-d.exp).toNat
  let high := upperEnd n * Nat.pow 10 (-d.exp).toNat
  if Binary64.significand n % 2 = 0 then low ≤ scaled && scaled ≤ high
  else low < scaled && scaled < high

private def belowPower (n : Nat) (k : Int) : Bool :=
  (Binary64.ratio n).1 * Nat.pow 10 (-k).toNat < (Binary64.ratio n).2 * Nat.pow 10 k.toNat

/-- The least `k` with the positive magnitude `n` below `10 ^ k`, from an
estimate by binary logarithms. -/
def decimalScale (n : Nat) : Int :=
  let guess : Int :=
    (((Binary64.ratio n).1.log2 : Int) - (Binary64.ratio n).2.log2) * 30103 / 100000 - 1
  if belowPower n guess then guess
  else if belowPower n (guess + 1) then guess + 1
  else if belowPower n (guess + 2) then guess + 2
  else guess + 3

/-- The nearer of the two neighbours of `n` on the grid `10 ^ exp` that reads
back, a tie to the even one. -/
private def onGrid (n : Nat) (exp : Int) : Option Digits :=
  let num := (Binary64.ratio n).1 * Nat.pow 10 (-exp).toNat
  let den := (Binary64.ratio n).2 * Nat.pow 10 exp.toNat
  let below : Digits := ⟨num / den, exp⟩
  let above : Digits := ⟨num / den + 1, exp⟩
  match readsBack n below, readsBack n above with
  | true, true => some ⟨roundHalfEven num den, exp⟩
  | true, false => some below
  | false, true => some above
  | false, false => none

def Digits.strip : Nat → Digits → Digits
  | 0, d => d
  | fuel + 1, d =>
    if d.digits ≠ 0 ∧ d.digits % 10 = 0 then strip fuel ⟨d.digits / 10, d.exp + 1⟩ else d

private def exact (n : Nat) : Digits :=
  ⟨(Binary64.ratio n).1 * Nat.pow 5 (-Binary64.exponent n).toNat, min (Binary64.exponent n) 0⟩

def shortest (n : Nat) : Digits :=
  if n = 0 then ⟨0, 0⟩
  else
    let k := decimalScale n
    match (List.range 17).findSome? fun (i : Nat) => onGrid n (k - (i + 1 : Nat)) with
    | some d => d.strip 18
    | none => exact n

end ContentConsole.Decimal
