set_option autoImplicit false
set_option relaxedAutoImplicit false

/-!
Doubles as their 64 bits, with exact rounding of fractions of naturals. The bits below the sign are
the *magnitude*; finite magnitudes read as `significand · 2 ^ exponent`.
-/
namespace ContentConsole.Decimal

/-- The quotient rounded to the nearest integer, a half to the even neighbour. -/
def roundHalfEven (num den : Nat) : Nat :=
  let q := num / den
  let r := num % den
  if 2 * r < den then q
  else if den < 2 * r then q + 1
  else if q % 2 = 0 then q
  else q + 1

structure Binary64 where
  bits : UInt64
deriving DecidableEq, Repr, Inhabited

namespace Binary64

def infinite : Nat := 0x7FF * Nat.pow 2 52

def magnitude (x : Binary64) : Nat := x.bits.toNat % Nat.pow 2 63

def isNegative (x : Binary64) : Bool := Nat.pow 2 63 ≤ x.bits.toNat

def ofMagnitude (negative : Bool) (n : Nat) : Binary64 :=
  ⟨UInt64.ofNat (if negative then Nat.pow 2 63 + n else n)⟩

def significand (n : Nat) : Nat := if n < Nat.pow 2 52 then n else Nat.pow 2 52 + n % Nat.pow 2 52

def exponent (n : Nat) : Int := if n < Nat.pow 2 52 then -1074 else (n / Nat.pow 2 52 : Nat) - 1075

def ratio (n : Nat) : Nat × Nat :=
  (significand n * Nat.pow 2 (exponent n).toNat, Nat.pow 2 (-exponent n).toNat)

/-- The greatest `e` with `2 ^ e ≤ num / den`, for a positive fraction. -/
def floorLog2 (num den : Nat) : Int :=
  let e : Int := (num.log2 : Int) - den.log2
  if den * Nat.pow 2 e.toNat ≤ num * Nat.pow 2 (-e).toNat then e else e - 1

/-- The magnitude nearest to a fraction; `infinite` from half a step
above the greatest double on. -/
def nearest (num den : Nat) : Nat :=
  if num = 0 then 0
  else
    let q := max (floorLog2 num den - 52) (-1074)
    let m := roundHalfEven (num * Nat.pow 2 (-q).toNat) (den * Nat.pow 2 q.toNat)
    min ((q + 1074).toNat * Nat.pow 2 52 + m) infinite

def ofNat (n : Nat) : Nat := nearest n 1

def mul (a b : Nat) : Nat :=
  nearest ((ratio a).1 * (ratio b).1) ((ratio a).2 * (ratio b).2)

def div (a b : Nat) : Nat :=
  nearest ((ratio a).1 * (ratio b).2) ((ratio a).2 * (ratio b).1)

/-- The magnitude nearest to `digits · 10 ^ exp`. Exponents far outside the range need no powers. -/
def ofDecimal (digits : Nat) (exp : Int) : Nat :=
  let size : Int := (Nat.toDigits 10 digits).length
  if digits = 0 then 0
  else if 400 < exp + size then infinite
  else if exp + size < -400 then 0
  else nearest (digits * Nat.pow 10 exp.toNat) (Nat.pow 10 (-exp).toNat)

end Binary64

end ContentConsole.Decimal
