import ContentConsole.Text.Basic

set_option autoImplicit false
set_option relaxedAutoImplicit false

/-!
Labels of domain names in letters, digits and hyphens only: the plain characters first, then, behind
a hyphen, where each other character goes. Positions are written as differences in digits of base
36, with thresholds that adapt to the differences before.
-/
namespace ContentConsole.Url.Punycode

private def base : Nat := 36

private def tMin : Nat := 1

private def tMax : Nat := 26

private def firstNumber : Nat := 128

private def firstBias : Nat := 72

/-- Halves `delta` below the bound; gives what is left and the number of steps. -/
private def reduce : Nat → Nat → Nat → Nat × Nat
  | 0, delta, steps => (delta, steps)
  | fuel + 1, delta, steps =>
    if (base - tMin) * tMax / 2 < delta then reduce fuel (delta / (base - tMin)) (steps + 1)
    else (delta, steps)

/-- The bias after a difference; the first one counts less. -/
private def adapt (delta points : Nat) (isFirst : Bool) : Nat :=
  let delta := if isFirst then delta / 700 else delta / 2
  let delta := delta + delta / points
  let (delta, steps) := reduce delta delta 0
  steps * base + (base - tMin + 1) * delta / (delta + 38)

private def threshold (k bias : Nat) : Nat := max tMin (min tMax (k - bias))

private def digitOf (n : Nat) : Char := if n < 26 then Char.ofNat (97 + n) else Char.ofNat (22 + n)

private def valueOf (c : Char) : Option Nat :=
  if 'a' ≤ c && c ≤ 'z' then some (c.toNat - 97)
  else if 'A' ≤ c && c ≤ 'Z' then some (c.toNat - 65)
  else if Text.isDigit c then some (c.toNat - 22)
  else none

private def writeNumber (bias : Nat) : Nat → Nat → Nat → List Char
  | 0, _, _ => []
  | fuel + 1, k, q =>
    let t := threshold k bias
    if q < t then [digitOf q]
    else digitOf (t + (q - t) % (base - t)) :: writeNumber bias fuel (k + base)
      ((q - t) / (base - t))

private structure State where
  delta : Nat
  bias : Nat
  handled : Nat
  output : List Char

private def encodePlace (plain n : Nat) (s : State) (c : Nat) : State :=
  if c < n then { s with delta := s.delta + 1 }
  else if c = n then
    { delta := 0
      bias := adapt s.delta (s.handled + 1) (s.handled = plain)
      handled := s.handled + 1
      output := s.output ++ writeNumber s.bias (s.delta + 1) base s.delta }
  else s

/-- Inserts the characters from `n` on, those of one number in each round. -/
private def encodeRounds (plain : Nat) (points : List Nat) : Nat → Nat → State → State
  | 0, _, s => s
  | fuel + 1, n, s =>
    match (points.filter (n ≤ ·)).min? with
    | none => s
    | some next =>
      let s := { s with delta := s.delta + (next - n) * (s.handled + 1) }
      let s := points.foldl (encodePlace plain next) s
      encodeRounds plain points fuel (next + 1) { s with delta := s.delta + 1 }

def encode (label : List Char) : List Char :=
  let points := label.map Char.toNat
  let plain := label.filter fun c => c.toNat < firstNumber
  let lead := if plain.isEmpty then [] else plain ++ ['-']
  (encodeRounds plain.length points points.length firstNumber
    ⟨0, firstBias, plain.length, lead⟩).output

private def readNumber (bias : Nat) : Nat → Nat → Nat → List Char → Option (Nat × List Char)
  | _, _, _, [] => none
  | i, weight, k, c :: rest =>
    match valueOf c with
    | none => none
    | some d =>
      let t := threshold k bias
      let i := i + d * weight
      if Nat.pow 2 32 ≤ i then none
      else if d < t then some (i, rest)
      else readNumber bias i (weight * (base - t)) (k + base) rest

private def decodeFrom : Nat → Nat → Nat → Nat → List Nat → List Char → Option (List Nat)
  | _, _, _, _, points, [] => some points
  | 0, _, _, _, _, _ => none
  | fuel + 1, n, i, bias, points, cs =>
    match readNumber bias i 1 base cs with
    | none => none
    | some (next, rest) =>
      let count := points.length + 1
      let n := n + next / count
      let place := next % count
      if n.isValidChar then
        decodeFrom fuel n (place + 1) (adapt (next - i) count (i = 0))
          (points.take place ++ n :: points.drop place) rest
      else none

/-- Cuts at the last hyphen; without one all characters are digits. -/
private def cutAtHyphen (cs : List Char) : List Char × List Char :=
  if cs.contains '-' then
    let digits := (cs.reverse.takeWhile (· ≠ '-')).reverse
    (cs.take (cs.length - digits.length - 1), digits)
  else ([], cs)

def decode (cs : List Char) : Option (List Char) :=
  let (plain, digits) := cutAtHyphen cs
  if plain.any fun c => firstNumber ≤ c.toNat then none
  else
    (decodeFrom digits.length firstNumber 0 firstBias (plain.map Char.toNat) digits).map
      fun points => points.map Char.ofNat

end ContentConsole.Url.Punycode
