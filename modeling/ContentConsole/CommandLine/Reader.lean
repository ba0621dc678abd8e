import ContentConsole.CommandLine.Level

set_option autoImplicit false
set_option relaxedAutoImplicit false

/-!
Reading the words of a command line, from the first to the last. The value of an option is taken in
when the next option or operand begins, or at the end of its level, and refused then if it is not
admitted. Behind `--` all words are operands.
-/
namespace ContentConsole.CommandLine

/-- Why no command comes out of a command line. -/
inductive Stop
  /-- The version was asked for, with the name of the command that was asked. -/
  | version (command : String)
  | help
  | rejected
deriving DecidableEq, Repr

structure Given where
  /-- The options with their values, which are empty for those that take none. -/
  options : List (Opt × String) := []
  operands : List String := []
deriving Repr

namespace Given

def has (g : Given) (o : Opt) : Bool := g.options.any fun given => given.1 == o

def value? (g : Given) (o : Opt) : Option String := g.options.lookup o

def values (g : Given) (o : Opt) : List String :=
  g.options.filterMap fun given => if given.1 = o then some given.2 else none

/-- Takes in an option, at most once unless it may be repeated. -/
def take (g : Given) (o : Opt) (value : String) : Except Stop Given :=
  if (g.has o && !o.isRepeatable) || !o.admits value then .error .rejected
  else .ok { g with options := g.options ++ [(o, value)] }

end Given

/-- A level while its words are read. -/
structure Progress where
  level : Level
  /-- The names of the levels down to this one, joined by hyphens. -/
  fullName : String
  given : Given := {}
  /-- The last option and, unless that is still awaited, its value. -/
  pending : Option (Opt × Option String) := none
  /-- All further words are operands. -/
  onlyOperands : Bool := false
deriving Repr

namespace Progress

def isAwaiting (p : Progress) : Bool := p.pending.any fun option => option.2.isNone

def settle (p : Progress) : Except Stop Progress :=
  match p.pending with
  | none => .ok p
  | some (_, none) => .error .rejected
  | some (o, some value) =>
    (p.given.take o value).map fun given => { p with given, pending := none }

private def takeNow (p : Progress) (o : Opt) (value : String) : Except Stop Progress := do
  let p ← p.settle
  return { p with given := ← p.given.take o value }

def flag (p : Progress) (o : Opt) : Except Stop Progress :=
  match o with
  | .help => p.settle.bind fun _ => .error .help
  | .version => p.settle.bind fun p => .error (.version p.fullName)
  | o => p.takeNow o ""

def await (p : Progress) (o : Opt) : Except Stop Progress :=
  p.settle.map fun p => { p with pending := some (o, none) }

/-- A cluster of letters. The first option with a value takes all that
follows it, less an equals sign. -/
def letters (p : Progress) : List Char → Except Stop Progress
  | [] => .ok p
  | c :: rest =>
    match p.level.shortOption? c with
    | none => .error .rejected
    | some o =>
      if o.takesValue then
        match rest with
        | [] => p.await o
        | '=' :: value => p.takeNow o (String.ofList value)
        | value => p.takeNow o (String.ofList value)
      else (p.flag o).bind fun p => p.letters rest

/-- The name of a long option, with its value if an equals sign follows. -/
def longWord (p : Progress) (word : List Char) : Except Stop Progress :=
  let name := String.ofList (word.takeWhile (· ≠ '='))
  match p.level.longOption? name, word.dropWhile (· ≠ '=') with
  | none, _ => .error .rejected
  | some o, [] => if o.takesValue then p.await o else p.flag o
  | some o, _ :: value =>
    if o.takesValue then p.takeNow o (String.ofList value) else .error .rejected

def operand (p : Progress) (word : String) : Except Stop Progress :=
  if p.given.operands.length < p.level.operands then
    p.settle.map fun p =>
      { p with given := { p.given with operands := p.given.operands ++ [word] } }
  else .error .rejected

def word (p : Progress) (word : String) : Except Stop Progress :=
  if p.onlyOperands then p.operand word
  else
    match word.toList with
    | ['-', '-'] => .ok { p with onlyOperands := true }
    | '-' :: '-' :: rest => p.longWord rest
    | '-' :: c :: rest => p.letters (c :: rest)
    | _ =>
      match p.pending with
      | some (o, none) => .ok { p with pending := some (o, some word) }
      | _ => p.operand word

def command? (p : Progress) (word : String) : Option Level :=
  if p.onlyOperands || p.isAwaiting then none else p.level.command? word

/-- The word asks for help on the commands below the level. -/
def asksForHelp (p : Progress) (word : String) : Bool :=
  !p.onlyOperands && !p.isAwaiting && !p.level.commands.isEmpty && word == "help"

/-- What the level was given. A value that stands in for an absent option has to be admitted too. -/
def finish (p : Progress) (standIn : Opt → Option String) : Except Stop Given := do
  let p ← p.settle
  let isAdmitted (o : Opt) : Bool := p.given.has o || (standIn o).all o.admits
  if p.level.options.all isAdmitted then return p.given else throw .rejected

end Progress

def isCommandPath (level : Level) : List String → Bool
  | [] => true
  | word :: rest =>
    match level.command? word with
    | some l => isCommandPath l rest
    | none => false

/-- A command line as read: the last level, and what each level was given, the last one first. -/
structure Words where
  level : Level
  given : List Given
deriving Repr

def readLevel (standIn : Opt → Option String) (p : Progress) : List String → Except Stop Words
  | [] => (p.finish standIn).map fun given => ⟨p.level, [given]⟩
  | word :: rest =>
    if p.asksForHelp word then .error (if isCommandPath p.level rest then .help else .rejected)
    else
      match p.command? word with
      | some l => do
        let below ← readLevel standIn { level := l, fullName := s!"{p.fullName}-{l.name}" } rest
        let given ← p.finish standIn
        return { below with given := below.given ++ [given] }
      | none => (p.word word).bind fun p => readLevel standIn p rest

def readWords (standIn : Opt → Option String) (args : List String) : Except Stop Words :=
  readLevel standIn { level := .program, fullName := Level.program.name } args

namespace Words

def value? (w : Words) (o : Opt) : Option String := w.given.findSome? fun g => g.value? o

def has (w : Words) (o : Opt) : Bool := w.given.any fun g => g.has o

def last (w : Words) : Given := w.given.headD {}

end Words

end ContentConsole.CommandLine
