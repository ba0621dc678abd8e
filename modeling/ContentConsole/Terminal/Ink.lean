set_option autoImplicit false
set_option relaxedAutoImplicit false

/-! Styles of text on a terminal. -/
namespace ContentConsole.Terminal

inductive Ink
  | bold
  | dimmed
  | underlined
  | red
  | green
  | yellow
  | cyan
deriving DecidableEq, Repr

def Ink.code : Ink → String
  | .bold => "1"
  | .dimmed => "2"
  | .underlined => "4"
  | .red => "31"
  | .green => "32"
  | .yellow => "33"
  | .cyan => "36"

def turnOn (inks : List Ink) : List Char :=
  ['\x1b', '['] ++ (";".intercalate (inks.map Ink.code)).toList ++ ['m']

def turnOff : List Char := ['\x1b', '[', '0', 'm']

/-- Turns styles on again wherever a text turns them off. -/
private def kept (on : List Char) : List Char → List Char
  | '\x1b' :: '[' :: '0' :: 'm' :: rest => turnOff ++ on ++ kept on rest
  | c :: rest => c :: kept on rest
  | [] => []

def paint (inks : List Ink) (s : String) : String :=
  String.ofList (turnOn inks ++ kept (turnOn inks) s.toList ++ turnOff)

end ContentConsole.Terminal
