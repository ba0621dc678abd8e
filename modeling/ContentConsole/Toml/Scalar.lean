import ContentConsole.Decimal.Binary64
import ContentConsole.Text.Basic
import ContentConsole.Toml.Basic

set_option autoImplicit false
set_option relaxedAutoImplicit false

/-! Numbers, dates and times of a TOML document. -/
namespace ContentConsole.Toml

open Text (isDigit isHexDigit digitValue digitsValue hexDigitsValue)

/-- Reads digits in which an underscore may stand between any two; gives the digits alone. -/
def readDigits (isDigit : Char → Bool) : List Char → Reading (List Char)
  | [] => none
  | c :: rest =>
    if !isDigit c then none
    else
      match rest with
      | '_' :: rest' =>
        match readDigits isDigit rest' with
        | some (ds, after) => some (c :: ds, after)
        | none => none
      | rest =>
        match readDigits isDigit rest with
        | some (ds, after) => some (c :: ds, after)
        | none => some ([c], rest)

def takeSign : List Char → Bool × List Char
  | '-' :: cs => (true, cs)
  | '+' :: cs => (false, cs)
  | cs => (false, cs)

def readWhole : List Char → Reading (List Char)
  | '0' :: rest => some (['0'], rest)
  | cs => readDigits isDigit cs

def signed (minus : Bool) (n : Nat) : Int := if minus then -(n : Int) else n

def fits (n : Int) : Bool := -Int.pow 2 63 ≤ n && n < Int.pow 2 63

def readBased (base : Nat) (isDigit : Char → Bool) (cs : List Char) : Reading Toml :=
  match readDigits isDigit cs with
  | none => none
  | some (ds, rest) =>
    let n := ds.foldl (fun n c => n * base + hexDigitsValue [c]) 0
    if fits n then some (.integer n, rest) else none

/-- An integer that fits 64 bits, in decimal or, without a sign, in base 16, 8 or 2. -/
def readInteger : List Char → Reading Toml
  | '0' :: 'x' :: rest => readBased 16 isHexDigit rest
  | '0' :: 'o' :: rest => readBased 8 (fun c => isDigit c && digitValue c < 8) rest
  | '0' :: 'b' :: rest => readBased 2 (fun c => isDigit c && digitValue c < 2) rest
  | cs =>
    let (minus, cs) := takeSign cs
    match readWhole cs with
    | none => none
    | some (ds, rest) =>
      let n := signed minus (digitsValue ds)
      if fits n then some (.integer n, rest) else none

def readFraction : List Char → Option (List Char × List Char)
  | '.' :: rest => readDigits isDigit rest
  | _ => none

def readPower : List Char → Reading Int
  | mark :: rest =>
    if mark = 'e' || mark = 'E' then
      let (minus, rest) := takeSign rest
      (readDigits isDigit rest).map fun (ds, after) => (signed minus (digitsValue ds), after)
    else none
  | [] => none

def magnitude (whole fraction : List Char) (power : Int) : Nat :=
  Decimal.Binary64.ofDecimal (digitsValue (whole ++ fraction)) (power - fraction.length)

/-- A positive number beyond all doubles is refused; a negative one is minus infinity. -/
def rounded (minus : Bool) (n : Nat) (rest : List Char) : Reading Toml :=
  if n = Decimal.Binary64.infinite && !minus then none
  else some (.float (.ofMagnitude minus n), rest)

/-- A number with a fraction or a power of ten, or one of the names `inf` and `nan`. -/
def readFloat (cs : List Char) : Reading Toml :=
  let (minus, cs) := takeSign cs
  match cs with
  | 'i' :: 'n' :: 'f' :: rest =>
    some (.float (.ofMagnitude minus Decimal.Binary64.infinite), rest)
  | 'n' :: 'a' :: 'n' :: rest =>
    some (.float (.ofMagnitude minus (Decimal.Binary64.infinite + Nat.pow 2 51)), rest)
  | cs =>
    match readWhole cs with
    | none => none
    | some (whole, rest) =>
      match readFraction rest with
      | some (fraction, rest) =>
        match readPower rest with
        | some (power, rest) => rounded minus (magnitude whole fraction power) rest
        | none => rounded minus (magnitude whole fraction 0) rest
      | none =>
        match readPower rest with
        | some (power, rest) => rounded minus (magnitude whole [] power) rest
        | none => none

/-! ## Dates and times -/

def readField (count : Nat) (cs : List Char) : Reading Nat :=
  let ds := cs.take count
  if ds.length = count && ds.all isDigit then some (digitsValue ds, cs.drop count) else none

def expect (c : Char) : List Char → Option (List Char)
  | x :: rest => if x = c then some rest else none
  | [] => none

private def isLeap (year : Nat) : Bool := year % 4 = 0 && (year % 100 ≠ 0 || year % 400 = 0)

def daysIn (year month : Nat) : Nat :=
  if month = 2 then if isLeap year then 29 else 28
  else if month = 4 || month = 6 || month = 9 || month = 11 then 30
  else 31

def readDate (cs : List Char) : Option (List Char) := do
  let (year, cs) ← readField 4 cs
  let cs ← expect '-' cs
  let (month, cs) ← readField 2 cs
  let cs ← expect '-' cs
  let (day, cs) ← readField 2 cs
  if 1 ≤ month && month ≤ 12 && 1 ≤ day && day ≤ daysIn year month then some cs else none

private def readSecondFraction : List Char → List Char
  | '.' :: c :: rest => if isDigit c then rest.dropWhile isDigit else '.' :: c :: rest
  | cs => cs

def readClock (cs : List Char) : Option (List Char) := do
  let (hour, cs) ← readField 2 cs
  let cs ← expect ':' cs
  let (minute, cs) ← readField 2 cs
  if hour < 24 && minute < 60 then some cs else none

def readTime (cs : List Char) : Option (List Char) := do
  let cs ← readClock cs
  let cs ← expect ':' cs
  let (second, cs) ← readField 2 cs
  if second ≤ 60 then some (readSecondFraction cs) else none

private def readOffset : List Char → List Char
  | c :: rest =>
    if c = 'Z' || c = 'z' then rest
    else if c = '+' || c = '-' then (readClock rest).getD (c :: rest)
    else c :: rest
  | [] => []

def readDayTime : List Char → List Char
  | c :: rest =>
    if c = 'T' || c = 't' || c = ' ' then
      match readTime rest with
      | some after => readOffset after
      | none => c :: rest
    else c :: rest
  | [] => []

def readMoment (cs : List Char) : Reading Toml :=
  let found := ((readDate cs).map readDayTime).orElse fun _ => readTime cs
  found.map fun rest => (.moment (String.ofList (cs.take (cs.length - rest.length))), rest)

/-- A value that starts like a number: the longest of the kinds in this order. -/
def readNumeric (cs : List Char) : Reading Toml :=
  (readMoment cs).orElse fun _ => (readFloat cs).orElse fun _ => readInteger cs

end ContentConsole.Toml
