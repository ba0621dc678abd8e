import ContentConsole.Json.Basic
import ContentConsole.Text.Basic

set_option autoImplicit false
set_option relaxedAutoImplicit false

/-!
The lexical level of JSON text: white space, strings and numbers, each read from the front of a list
of characters, and the errors that refuse a text.
-/
namespace ContentConsole.Json

open Text (isDigit digitValue digitsValue hexValue)

inductive Reason
  | endInList
  | endInObject
  | endInString
  | endInValue
  | expectedColon
  | expectedCommaOrBracket
  | expectedCommaOrBrace
  | expectedWord
  | expectedValue
  | invalidEscape
  | invalidNumber
  | numberOutOfRange
  | controlCharacter
  | keyNotText
  | loneSurrogate
  | endOfHexEscape
  | trailingComma
  | trailingCharacters
  | tooDeep
  /-- A value of the wrong shape, where text is read straight into a type. -/
  | shape (what : String)
deriving DecidableEq, Repr

def Reason.message : Reason → String
  | .endInList => "EOF while parsing a list"
  | .endInObject => "EOF while parsing an object"
  | .endInString => "EOF while parsing a string"
  | .endInValue => "EOF while parsing a value"
  | .expectedColon => "expected `:`"
  | .expectedCommaOrBracket => "expected `,` or `]`"
  | .expectedCommaOrBrace => "expected `,` or `\x7d`"
  | .expectedWord => "expected ident"
  | .expectedValue => "expected value"
  | .invalidEscape => "invalid escape"
  | .invalidNumber => "invalid number"
  | .numberOutOfRange => "number out of range"
  | .controlCharacter => "control character (\\u0000-\\u001F) found while parsing a string"
  | .keyNotText => "key must be a string"
  | .loneSurrogate => "lone leading surrogate in hex escape"
  | .endOfHexEscape => "unexpected end of hex escape"
  | .trailingComma => "trailing comma"
  | .trailingCharacters => "trailing characters"
  | .tooDeep => "recursion limit exceeded"
  | .shape what => what

/-- A refusal, with the number of characters that stand behind the place it is about. -/
structure SyntaxError where
  reason : Reason
  left : Nat
deriving DecidableEq, Repr

abbrev Reading (α : Type) := Except SyntaxError (α × List Char)

def refuseAt {α : Type} (reason : Reason) (rest : List Char) : Reading α :=
  .error ⟨reason, rest.length - 1⟩

def refuse {α : Type} (reason : Reason) (rest : List Char) : Reading α :=
  .error ⟨reason, rest.length⟩

/-- Line and column, in bytes, of the place with `left` characters of the text behind it. -/
def placeOf (text : List Char) (left : Nat) : Nat × Nat :=
  let before := text.take (text.length - left)
  let line := before.reverse.takeWhile (· ≠ '\n')
  (before.count '\n' + 1, line.foldl (fun bytes c => bytes + c.utf8Size) 0)

def SyntaxError.message (text : List Char) (e : SyntaxError) : String :=
  let (line, column) := placeOf text e.left
  s!"{e.reason.message} at line {line} column {column}"

def isSpace (c : Char) : Bool := c = ' ' || c = '\n' || c = '\t' || c = '\r'

def skipSpace (cs : List Char) : List Char := cs.dropWhile isSpace

def readWord {α : Type} (value : α) : List Char → List Char → Reading α
  | [], rest => .ok (value, rest)
  | _ :: _, [] => refuse .endInValue []
  | w :: ws, c :: rest => if c = w then readWord value ws rest else refuse .expectedWord rest

/-! ## Strings -/

def hexValue4 (a b c d : Char) : Option Nat := do
  let a ← hexValue a
  let b ← hexValue b
  let c ← hexValue c
  let d ← hexValue d
  return ((a * 16 + b) * 16 + c) * 16 + d

def isLeading (n : Nat) : Bool := 0xD800 ≤ n && n ≤ 0xDBFF

def isTrailing (n : Nat) : Bool := 0xDC00 ≤ n && n ≤ 0xDFFF

def shortEscape (c : Char) : Option Char :=
  if c = '"' then some '"'
  else if c = '\\' then some '\\'
  else if c = '/' then some '/'
  else if c = 'b' then some '\x08'
  else if c = 'f' then some '\x0c'
  else if c = 'n' then some '\n'
  else if c = 'r' then some '\r'
  else if c = 't' then some '\t'
  else none

def consText (c : Char) : Reading (List Char) → Reading (List Char)
  | .ok (cs, rest) => .ok (c :: cs, rest)
  | .error e => .error e

/-- Reads the characters of a string up to its closing quote; surrogate escapes come in pairs. -/
def readText : List Char → Reading (List Char)
  | [] => refuse .endInString []
  | '"' :: rest => .ok ([], rest)
  | '\\' :: 'u' :: a :: b :: c :: d :: rest =>
    match hexValue4 a b c d with
    | none => refuse .invalidEscape rest
    | some n =>
      if isTrailing n then refuse .loneSurrogate rest
      else if isLeading n then
        match rest with
        | '\\' :: 'u' :: e :: f :: g :: h :: rest' =>
          match hexValue4 e f g h with
          | none => refuse .invalidEscape rest'
          | some m =>
            if isTrailing m then
              consText (Char.ofNat ((n - 0xD800) * 0x400 + (m - 0xDC00) + 0x10000)) (readText rest')
            else refuse .loneSurrogate rest'
        | '\\' :: 'u' :: _ => refuse .endInString []
        | '\\' :: _ :: rest' => refuse .endOfHexEscape rest'
        | ['\\'] => refuse .endInString []
        | _ :: rest' => refuse .endOfHexEscape rest'
        | [] => refuse .endInString []
      else consText (Char.ofNat n) (readText rest)
  | '\\' :: c :: rest =>
    match shortEscape c with
    | some x => consText x (readText rest)
    | none => if c = 'u' then refuse .endInString [] else refuse .invalidEscape rest
  | ['\\'] => refuse .endInString []
  | c :: rest =>
    if c.toNat < 0x20 then refuse .controlCharacter rest else consText c (readText rest)

/-- Passes over a string whose contents are not wanted, without asking for paired surrogates. -/
def skipText : List Char → Reading Unit
  | [] => refuse .endInString []
  | '"' :: rest => .ok ((), rest)
  | '\\' :: 'u' :: a :: b :: c :: d :: rest =>
    if (hexValue4 a b c d).isSome then skipText rest else refuse .invalidEscape rest
  | '\\' :: c :: rest =>
    if (shortEscape c).isSome then skipText rest
    else if c = 'u' then refuse .endInString []
    else refuse .invalidEscape rest
  | ['\\'] => refuse .endInString []
  | c :: rest => if c.toNat < 0x20 then refuse .controlCharacter rest else skipText rest

/-! ## Numbers -/

structure Numeral where
  isNegative : Bool
  whole : List Char
  fraction : Option (List Char)
  exponent : Option (Bool × List Char)
deriving Repr

/-- Reads an exponent behind its mark; `true` stands for a minus sign. -/
private def readExponent (cs : List Char) : Reading (Bool × List Char) :=
  let (minus, cs) :=
    match cs with
    | '+' :: rest => (false, rest)
    | '-' :: rest => (true, rest)
    | _ => (false, cs)
  match cs with
  | [] => refuse .endInValue []
  | c :: rest =>
    if isDigit c then .ok ((minus, cs.takeWhile isDigit), cs.dropWhile isDigit)
    else refuse .invalidNumber rest

private def readPower (isNegative : Bool) (whole : List Char) (fraction : Option (List Char))
    (cs : List Char) : Reading Numeral :=
  match cs with
  | c :: rest =>
    if c = 'e' || c = 'E' then
      match readExponent rest with
      | .ok (e, rest) => .ok (⟨isNegative, whole, fraction, some e⟩, rest)
      | .error e => .error e
    else .ok (⟨isNegative, whole, fraction, none⟩, cs)
  | [] => .ok (⟨isNegative, whole, fraction, none⟩, cs)

def readNumeral (isNegative : Bool) (cs : List Char) : Reading Numeral :=
  let whole := cs.takeWhile isDigit
  let rest := cs.dropWhile isDigit
  match cs, whole with
  | [], _ => refuse .endInValue []
  | _ :: rest', [] => refuse .invalidNumber rest'
  | _ :: rest', '0' :: _ :: _ => refuseAt .invalidNumber rest'
  | _, whole =>
    match rest with
    | '.' :: rest =>
      match rest.takeWhile isDigit, rest.dropWhile isDigit with
      | [], [] => refuse .endInValue []
      | [], rest => refuseAt .invalidNumber rest
      | fraction, rest => readPower isNegative whole (some fraction) rest
    | rest => readPower isNegative whole none rest

/-- Appends digits to a significand as long as it fits 64 bits; gives the digits left over, too. -/
def fillSignificand (n : Nat) : List Char → Nat × List Char
  | [] => (n, [])
  | c :: cs =>
    if n * 10 + digitValue c < Nat.pow 2 64 then fillSignificand (n * 10 + digitValue c) cs
    else (n, c :: cs)

/-- Divides by a power of ten in steps of at most 308, each step rounded. -/
private def scaleDown : Nat → Nat → Nat → Nat
  | 0, f, _ => f
  | fuel + 1, f, k =>
    if f = 0 then 0
    else if k ≤ 308 then Decimal.Binary64.div f (Decimal.Binary64.ofNat (Nat.pow 10 k))
    else
      scaleDown fuel (Decimal.Binary64.div f (Decimal.Binary64.ofNat (Nat.pow 10 308))) (k - 308)

/--
The magnitude of `significand · 10 ^ exp` as one rounded product or quotient with a rounded power of
ten; none if it is too large for a double.
-/
def scale (significand : Nat) (exp : Int) : Option Nat :=
  let f := Decimal.Binary64.ofNat significand
  if f = 0 then some 0
  else if exp < 0 then some (scaleDown (exp.natAbs / 308 + 1) f exp.natAbs)
  else if 308 < exp then none
  else
    let r := Decimal.Binary64.mul f (Decimal.Binary64.ofNat (Nat.pow 10 exp.toNat))
    if r < Decimal.Binary64.infinite then some r else none

/--
The value of a numeral. Without fraction and exponent it is an integer if it fits 64 bits, except
that minus zero is a double; every other numeral is a double, none if it is too large for one.
-/
def Numeral.value? (t : Numeral) : Option Number :=
  let (whole, dropped) := fillSignificand 0 t.whole
  let double (significand : Nat) (exp : Int) : Option Number :=
    (scale significand exp).map fun n => .double (Decimal.Binary64.ofMagnitude t.isNegative n)
  match t.fraction, t.exponent with
  | none, none =>
    if !dropped.isEmpty then double whole dropped.length
    else if !t.isNegative then some (.int whole)
    else if 0 < whole && whole ≤ Nat.pow 2 63 then some (.int (-whole))
    else double whole 0
  | fraction, exponent =>
    let digits := fraction.getD []
    let (significand, unread) := fillSignificand whole digits
    let power : Int :=
      match exponent with
      | some (true, ds) => -(digitsValue ds : Int)
      | some (false, ds) => digitsValue ds
      | none => 0
    double significand (dropped.length - (digits.length - unread.length : Nat) + power)

end ContentConsole.Json
