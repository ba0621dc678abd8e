import ContentConsole.Text.Basic

set_option autoImplicit false
set_option relaxedAutoImplicit false

/-!
Addresses as hosts. An address of version 4 has up to four parts in base 10, 8 or 16, the
last one filling all bytes left; one of version 6 has eight pieces, a run of zeros
between them left out at most once.
-/
namespace ContentConsole.Url

open Text (isDigit digitsValue isHexDigit hexDigitsValue)

/-! ## Version 4 -/

private def isOctalDigit (c : Char) : Bool := '0' ≤ c && c ≤ '7'

/-- A number in base 16 behind `0x`, in base 8 behind a zero, else in base 10. -/
def readPart (cs : List Char) : Option Nat :=
  match cs with
  | [] => none
  | '0' :: x :: rest =>
    if x = 'x' || x = 'X' then if rest.all isHexDigit then some (hexDigitsValue rest) else none
    else if (x :: rest).all isOctalDigit then
      some ((x :: rest).foldl (fun n c => n * 8 + Text.digitValue c) 0)
    else none
  | cs => if cs.all isDigit then some (digitsValue cs) else none

private def splitDots (cs : List Char) : List (List Char) := cs.splitOn '.'

private def parts (cs : List Char) : List (List Char) :=
  let ps := splitDots cs
  if ps.length > 1 && ps.getLast? = some [] then ps.dropLast else ps

/-- The last part of a host is a number, so the host can only be an address. -/
def endsInNumber (cs : List Char) : Bool :=
  match (parts cs).getLast? with
  | none | some [] => false
  | some last => last.all isDigit || (readPart last).isSome

def readAddress4 (cs : List Char) : Option Nat :=
  let ps := parts cs
  if 4 < ps.length then none
  else
    match ps.mapM readPart with
    | none => none
    | some numbers =>
      match numbers.getLast? with
      | none => none
      | some last =>
        let leading := numbers.dropLast
        if leading.any (255 < ·) || Nat.pow 256 (4 - leading.length) ≤ last then none
        else
          let shifted := leading.zipIdx.map fun (n, i) => n * Nat.pow 256 (3 - i)
          some (shifted.foldl (· + ·) last)

def writeAddress4 (n : Nat) : String :=
  let byte (i : Nat) : String := toString (n / Nat.pow 256 i % 256)
  ".".intercalate [byte 3, byte 2, byte 1, byte 0]

/-! ## Version 6 -/

/-- A number below 256 in base 10, as it may end an address of version 6. -/
private def readByte (cs : List Char) : Option Nat :=
  match cs with
  | [] => none
  | ['0'] => some 0
  | '0' :: _ => none
  | cs =>
    if cs.length ≤ 3 && cs.all isDigit && digitsValue cs < 256 then some (digitsValue cs) else none

private def readBytes (cs : List Char) : Option (List Nat) :=
  match (splitDots cs).mapM readByte with
  | some [a, b, c, d] => some [a * 256 + b, c * 256 + d]
  | _ => none

private def readPiece (cs : List Char) : Option Nat :=
  if 1 ≤ cs.length && cs.length ≤ 4 && cs.all isHexDigit then some (hexDigitsValue cs) else none

/-- Pieces with colons between them; the last may be written as bytes if `mayEndInBytes`. -/
private def readPieces (mayEndInBytes : Bool) : List (List Char) → Option (List Nat)
  | [] => some []
  | [last] =>
    if mayEndInBytes && last.contains '.' then readBytes last else (readPiece last).map ([·])
  | p :: rest => do
    let n ← readPiece p
    let ns ← readPieces mayEndInBytes rest
    return n :: ns

private def cutAtGap : List Char → Option (List Char × List Char)
  | [] => none
  | ':' :: ':' :: rest => some ([], rest)
  | c :: rest => (cutAtGap rest).map fun (before, after) => (c :: before, after)

private def pieceList (cs : List Char) : List (List Char) :=
  if cs.isEmpty then [] else cs.splitOn ':'

def readAddress6 (cs : List Char) : Option (List Nat) :=
  match cutAtGap cs with
  | none =>
    match readPieces true (pieceList cs) with
    | some pieces => if pieces.length = 8 then some pieces else none
    | none => none
  | some (before, after) =>
    match readPieces false (pieceList before), readPieces true (pieceList after) with
    | some front, some back =>
      if front.length + back.length < 8 then
        some (front ++ List.replicate (8 - front.length - back.length) 0 ++ back)
      else none
    | _, _ => none

/-- The start and the length of the first longest run of zeros. -/
private def longestGap (pieces : List Nat) : Nat × Nat :=
  let run (i : Nat) : Nat := ((pieces.drop i).takeWhile (· = 0)).length
  (List.range pieces.length).foldl (fun best i => if best.2 < run i then (i, run i) else best)
    (0, 0)

private def writePieces (pieces : List Nat) : List Char :=
  [':'].intercalate (pieces.map fun n => Nat.toDigits 16 n)

def writeAddress6 (pieces : List Nat) : String :=
  let (start, length) := longestGap pieces
  String.ofList <|
    if length < 2 then writePieces pieces
    else writePieces (pieces.take start) ++ [':', ':'] ++ writePieces (pieces.drop (start + length))

end ContentConsole.Url
