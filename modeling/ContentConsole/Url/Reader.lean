import ContentConsole.Url.Basic
import ContentConsole.Url.Domain
import ContentConsole.Url.Encoding

set_option autoImplicit false
set_option relaxedAutoImplicit false

/-!
Reading URLs, on their own and relative to a base. Blanks and control characters around a text do
not count, nor do tabs and line ends inside it.
-/
namespace ContentConsole.Url

inductive ReadError
  | emptyHost
  | domain
  | domainCharacter
  | port
  | address4
  | address6
  | relativeWithoutBase
  | relativeToRootless
deriving DecidableEq, Repr

def ReadError.message : ReadError → String
  | .emptyHost => "empty host"
  | .domain => "invalid international domain name"
  | .domainCharacter => "invalid domain character"
  | .port => "invalid port number"
  | .address4 => "invalid IPv4 address"
  | .address6 => "invalid IPv6 address"
  | .relativeWithoutBase => "relative URL without a base"
  | .relativeToRootless => "relative URL with a cannot-be-a-base base"

/-! ## Cutting a text into its parts -/

def isOuterBlank (c : Char) : Bool := c.toNat ≤ 0x20

def isInnerBlank (c : Char) : Bool := c = '\t' || c = '\n' || c = '\r'

def significant (s : String) : List Char :=
  let cs := s.toList.dropWhile isOuterBlank
  ((cs.reverse.dropWhile isOuterBlank).reverse).filter fun c => !isInnerBlank c

/-- What stands before the query, the query and the fragment, not encoded yet. -/
structure Parts where
  main : List Char
  query : Option (List Char)
  fragment : Option (List Char)

def afterMark : List Char → Option (List Char)
  | [] => none
  | _ :: rest => some rest

def Parts.ofChars (cs : List Char) : Parts :=
  let fragment := afterMark (cs.dropWhile (· ≠ '#'))
  let cs := cs.takeWhile (· ≠ '#')
  ⟨cs.takeWhile (· ≠ '?'), afterMark (cs.dropWhile (· ≠ '?')), fragment⟩

namespace Parts

def queryText (p : Parts) (isSpecial : Bool) : Option String :=
  p.query.map fun cs => String.ofList (percentEncode (inQuerySet isSpecial) cs)

def fragmentText (p : Parts) : Option String :=
  p.fragment.map fun cs => String.ofList (percentEncode inFragmentSet cs)

end Parts

def isLetter (c : Char) : Bool := ('a' ≤ c && c ≤ 'z') || ('A' ≤ c && c ≤ 'Z')

def isSchemeChar (c : Char) : Bool := isLetter c || Text.isDigit c || ['+', '-', '.'].contains c

def readScheme : List Char → Option (String × List Char)
  | [] => none
  | c :: rest =>
    if !isLetter c then none
    else
      match rest.dropWhile isSchemeChar with
      | ':' :: after =>
        some (Text.lowerAscii (String.ofList (c :: rest.takeWhile isSchemeChar)), after)
      | _ => none

def isSlash (isSpecial : Bool) (c : Char) : Bool := c = '/' || (isSpecial && c = '\\')

/-! ## Hosts -/

/-- The part in front of the port's colon; a colon inside brackets is none. -/
def hostPart (isInside : Bool) : List Char → List Char × List Char
  | [] => ([], [])
  | c :: rest =>
    if c = ':' && !isInside then ([], c :: rest)
    else
      let (host, after) :=
        hostPart (if c = '[' then true else if c = ']' then false else isInside) rest
      (c :: host, after)

private def readBracketed (cs : List Char) : Except ReadError Host :=
  if cs.getLast? ≠ some ']' then .error .address6
  else
    match readAddress6 (cs.drop 1).dropLast with
    | some pieces => .ok (.address6 pieces)
    | none => .error .address6

private def decoded (cs : List Char) : Option (List Char) :=
  (String.fromUTF8? ⟨(percentDecode cs).toArray⟩).map String.toList

def readHost (cs : List Char) : Except ReadError Host :=
  if cs.head? = some '[' then readBracketed cs
  else
    match (decoded cs).bind Domain.toAscii? with
    | none => .error .domain
    | some [] => .error .emptyHost
    | some domain =>
      if endsInNumber domain then
        match readAddress4 domain with
        | some n => .ok (.address4 n)
        | none => .error .address4
      else .ok (.name (String.ofList domain))

private def isForeignToHosts (c : Char) : Bool :=
  ['\x00', '\t', '\n', '\r', ' ', '#', '/', ':', '<', '>', '?', '@', '[', '\\', ']', '^',
    '|'].contains c

/-- The host of any other URL: an address of version 6 or a name as it stands. -/
def readForeignHost (cs : List Char) : Except ReadError Host :=
  if cs.head? = some '[' then readBracketed cs
  else if cs.any isForeignToHosts then .error .domainCharacter
  else .ok (.name (String.ofList (percentEncode isControl cs)))

/-- Reads a port up to a slash; the default one of the scheme is left out. -/
def readPort (scheme : String) (cs : List Char) : Except ReadError (Option Nat × List Char) :=
  let digits := cs.takeWhile Text.isDigit
  let port := Text.digitsValue digits
  match cs.dropWhile Text.isDigit with
  | c :: rest =>
    if 65535 < port || c ≠ '\\' then .error .port
    else
      .ok (if digits.isEmpty || defaultPort scheme = some port then none else some port, c :: rest)
  | [] =>
    if 65535 < port then .error .port
    else .ok (if digits.isEmpty || defaultPort scheme = some port then none else some port, [])

def cutUser (cs : List Char) : Option (List Char × List Char) :=
  if cs.contains '@' then
    let host := (cs.reverse.takeWhile (· ≠ '@')).reverse
    some (cs.take (cs.length - host.length - 1), host)
  else none

private def readUser (cs : List Char) : String × String :=
  let encoded (cs : List Char) : String := String.ofList (percentEncode inUserSet cs)
  (encoded (cs.takeWhile (· ≠ ':')), encoded ((cs.dropWhile (· ≠ ':')).drop 1))

/--
Reads what stands between the two slashes and the path; gives what belongs to the path already.
`isBare` says that nothing at all follows.
-/
def readAuthority (scheme : String) (isBare : Bool) (cs : List Char) :
    Except ReadError (Authority × List Char) :=
  let isSpecial := isSpecialScheme scheme
  let (user, hostAndPort) := (cutUser cs).getD ([], cs)
  if (cutUser cs).isSome && user.isEmpty && hostAndPort.isEmpty && !isBare then .error .emptyHost
  else
    let (username, password) := readUser user
    let (host, after) := hostPart false hostAndPort
    if isSpecial && host.isEmpty then .error .emptyHost
    else
      match if isSpecial then readHost host else readForeignHost host with
      | .error e => .error e
      | .ok host =>
        if host.isEmpty && (!after.isEmpty || !(username.isEmpty && password.isEmpty)) then
          .error .emptyHost
        else
          match after with
          | ':' :: port =>
            match readPort scheme port with
            | .error e => .error e
            | .ok (port, rest) => .ok (⟨username, password, host, port⟩, rest)
          | rest => .ok (⟨username, password, host, none⟩, rest)

/-! ## Paths -/

private def isDriveLetter (cs : List Char) : Bool :=
  match cs with
  | [a, b] => isLetter a && (b = ':' || b = '|')
  | _ => false

private def isNormalDriveLetter (s : String) : Bool :=
  match s.toList with
  | [a, b] => isLetter a && b = ':'
  | _ => false

def isDot (cs : List Char) : Bool := [".", "%2e", "%2E"].contains (String.ofList cs)

def isDoubleDot (cs : List Char) : Bool :=
  ["..", "%2e%2e", "%2e%2E", "%2E%2e", "%2E%2E", "%2e.", "%2E.", ".%2e", ".%2E"].contains
    (String.ofList cs)

/-- Leaves the last segment, unless it is the letter of a drive. -/
def leave (parts : List String) : List String :=
  match parts.getLast? with
  | some last => if isDriveLetter last.toList then parts else parts.dropLast
  | none => []

/-- The letter of a drive that starts the path of a file is followed by a colon. -/
def segmentText (isFile : Bool) (parts : List String) (cs : List Char) : String :=
  let encoded := percentEncode inPathSet cs
  if isFile && parts.isEmpty && isDriveLetter encoded then String.ofList (encoded.take 1 ++ [':'])
  else String.ofList encoded

/-- Follows the segments of a text from a place in a path: one dot stays and two dots lead back. -/
def follow (isFile : Bool) (parts : List String) : List (List Char) → List String
  | [] => parts
  | [last] =>
    if isDoubleDot last then leave parts ++ [""]
    else if isDot last then parts ++ [""]
    else parts ++ [segmentText isFile parts last]
  | s :: rest =>
    if isDoubleDot s then follow isFile (leave parts) rest
    else if isDot s then follow isFile parts rest
    else follow isFile (parts ++ [segmentText isFile parts s]) rest

def cutAtSlashes (isSpecial : Bool) (cs : List Char) : List (List Char) :=
  (cs.map fun c => if isSlash isSpecial c then '/' else c).splitOn '/'

def fromRoot (isSpecial : Bool) (cs : List Char) : List String :=
  follow false [] (cutAtSlashes isSpecial cs)

def afterAuthority (isSpecial : Bool) (cs : List Char) : List String :=
  match cs with
  | [] => if isSpecial then [""] else []
  | c :: rest => fromRoot isSpecial (if isSlash isSpecial c then rest else c :: rest)

/-! ## The states of reading -/

def withParts (p : Parts) (scheme : String) (authority : Option Authority) (path : UrlPath) : Url :=
  ⟨scheme, authority, path, p.queryText (isSpecialScheme scheme), p.fragmentText⟩

/-- Behind two slashes, for every scheme but that of files. -/
def readHierarchical (p : Parts) (scheme : String) (main : List Char) : Except ReadError Url :=
  let isSpecial := isSpecialScheme scheme
  let path := main.dropWhile fun c => !isSlash isSpecial c
  let isBare := path.isEmpty && p.query.isNone && p.fragment.isNone
  match readAuthority scheme isBare (main.takeWhile fun c => !isSlash isSpecial c) with
  | .error e => .error e
  | .ok (authority, rest) =>
    .ok (withParts p scheme (some authority) (.segments (afterAuthority isSpecial (rest ++ path))))

def readRelative (p : Parts) (base : Url) (parts : List String) : Except ReadError Url :=
  let isSpecial := isSpecialScheme base.scheme
  let isAnySlash (c : Char) : Bool := c = '/' || c = '\\'
  match p.main with
  | [] =>
    match p.query with
    | some _ => .ok (withParts p base.scheme base.authority base.path)
    | none => .ok { base with fragment := p.fragmentText }
  | '/' :: '/' :: rest => readHierarchical p base.scheme rest
  | a :: rest =>
    if isAnySlash a then
      if rest.head?.any isAnySlash then
        readHierarchical p base.scheme (rest.dropWhile isAnySlash)
      else .ok (withParts p base.scheme base.authority (.segments (fromRoot isSpecial rest)))
    else
      .ok (withParts p base.scheme base.authority
        (.segments (follow false parts.dropLast (cutAtSlashes isSpecial (a :: rest)))))

/-! ### Files -/

private def fileHost (cs : List Char) : Except ReadError Host :=
  if cs.isEmpty then .ok (.name "")
  else
    match readHost cs with
    | .ok (.name "localhost") => .ok (.name "")
    | other => other

/-- Empty segments at the start of the path of a file do not count. -/
private def trimmed (parts : List String) : List String :=
  match parts.dropWhile String.isEmpty with
  | [] => [""]
  | rest => rest

private def filePath (parts : List String) (cs : List Char) : List String :=
  trimmed (follow true parts (cutAtSlashes true cs))

def file (p : Parts) (host : Host) (parts : List String) : Url :=
  withParts p "file" (some { host }) (.segments parts)

private def startsWithDrive (cs : List Char) : Bool :=
  isDriveLetter (cs.take 2) && (cs.drop 2).head?.all (isSlash true)

def pathParts (u : Url) : List String :=
  match u.path with
  | .segments parts => parts
  | .rootless _ => []

private def hostOf (u : Url) : Host := (u.authority.map Authority.host).getD (.name "")

/-- The path of a file and its host, which the letter of a drive takes the place of. -/
def fileAt (p : Parts) (host : Host) (main : List Char) : Url :=
  let start := (main.takeWhile fun c => !isSlash true c)
  file p (if isDriveLetter start then .name "" else host) (filePath [] main)

def readFile (p : Parts) (base : Option Url) : Except ReadError Url :=
  match p.main with
  | a :: b :: rest =>
    if isSlash true a && isSlash true b then
      let host := rest.takeWhile fun c => !isSlash true c
      let after := rest.dropWhile fun c => !isSlash true c
      if isDriveLetter host then .ok (file p (.name "") (filePath [] rest))
      else (fileHost host).map fun host => fileAt p host (after.drop 1)
    else readNear (a :: b :: rest)
  | main => readNear main
where
  /-- Without a host of its own. -/
  readNear (main : List Char) : Except ReadError Url :=
    match base, main with
    | some base, [] =>
      match p.query with
      | some _ => .ok (file p (hostOf base) (pathParts base))
      | none => .ok { base with fragment := p.fragmentText }
    | none, [] => .ok (file p (.name "") [""])
    | some base, a :: rest =>
      if isSlash true a then
        match (pathParts base).head? with
        | some first =>
          if startsWithDrive rest then .ok (fileAt p (.name "") rest)
          else if isNormalDriveLetter first then .ok (file p (.name "") (filePath [first] rest))
          else .ok (file p (hostOf base) (filePath [] rest))
        | none => .ok (file p (hostOf base) (filePath [] rest))
      else if startsWithDrive (a :: rest) then .ok (fileAt p (.name "") (a :: rest))
      else
        let parts := pathParts base
        let kept := if (parts.getLast?.any isNormalDriveLetter) then parts else parts.dropLast
        .ok (file p (hostOf base) (filePath kept (a :: rest)))
    | none, a :: rest =>
      if isSlash true a then .ok (fileAt p (.name "") rest)
      else .ok (fileAt p (.name "") (a :: rest))

def readAbsolute (base : Option Url) (scheme : String) (cs : List Char) : Except ReadError Url :=
  let p := Parts.ofChars cs
  if scheme = "file" then readFile p (base.filter fun b => b.scheme = "file")
  else if isSpecialScheme scheme then
    let slashes := p.main.takeWhile (isSlash true)
    match base.filter fun b => b.scheme = scheme && slashes.length < 2 with
    | some base => readRelative p base (pathParts base)
    | none => readHierarchical p scheme (p.main.dropWhile (isSlash true))
  else
    match p.main with
    | '/' :: '/' :: rest => readHierarchical p scheme rest
    | '/' :: rest => .ok (withParts p scheme none (.segments (fromRoot false rest)))
    | main =>
      .ok (withParts p scheme none (.rootless (String.ofList (percentEncode isControl main))))

def readChars (base : Option Url) (cs : List Char) : Except ReadError Url :=
  match readScheme cs, base with
  | some (scheme, rest), base => readAbsolute base scheme rest
  | none, none => .error .relativeWithoutBase
  | none, some base =>
    let p := Parts.ofChars cs
    match base.path with
    | .rootless _ =>
      if cs.head? = some '#' then .ok { base with fragment := p.fragmentText }
      else .error .relativeToRootless
    | .segments parts =>
      if base.scheme = "file" then readFile p (some base) else readRelative p base parts

def read (s : String) : Except ReadError Url := readChars none (significant s)

def join (base : Url) (s : String) : Except ReadError Url := readChars (some base) (significant s)

def addQuery (u : Url) (name value : String) : Url :=
  let pair := String.ofList (formEncode name.toList ++ '=' :: formEncode value.toList)
  match u.query with
  | none => { u with query := some pair }
  | some query => { u with query := some (if query.isEmpty then pair else query ++ "&" ++ pair) }

end ContentConsole.Url
