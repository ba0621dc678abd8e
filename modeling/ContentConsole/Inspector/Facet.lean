import ContentConsole.Entity.Basic
import ContentConsole.Text.Case
import ContentConsole.Text.Basic

set_option autoImplicit false
set_option relaxedAutoImplicit false

/-!
The facets under which the inspector shows an entity, and the labels of
property keys in each of them.
-/
namespace ContentConsole

inductive Facet
  | all
  | incoming
  | outgoing
  /-- Attributes that take part in rendering. -/
  | html
deriving DecidableEq, Repr, Inhabited

namespace Facet

def name : Facet → String
  | .all => "all"
  | .incoming => "in"
  | .outgoing => "out"
  | .html => "html"

def htmlMark : String := "_html_"

def segment : Facet → String
  | .html => htmlMark
  | facet => facet.name

def heading : Facet → String
  | .all => "Node"
  | .incoming => "Incoming"
  | .outgoing => "Outgoing"
  | .html => "HTML"

/-- A content node is not rendered on its own and has no `html` facet. -/
def ofType : EntityType → List Facet
  | .content => [.all, .incoming, .outgoing]
  | _ => [.all, .incoming, .outgoing, .html]

/-- Reads a name in any case; `html` is also known by its mark. -/
def ofText? (s : String) : Option Facet :=
  match Text.lower s with
  | "all" => some .all
  | "in" => some .incoming
  | "out" => some .outgoing
  | "html" | "_html_" => some .html
  | _ => none

def unknownMessage (s : String) : String :=
  s!"Unknown view '{s}'. Valid options: all, in, out, html"

end Facet

/-! ## Labels of keys -/

namespace KeyLabel

def isSeparator (c : Char) : Bool := c = '_' || c = '-' || c = ' '

/-- A word ends between a small letter or digit and a capital. -/
def endsBetween (before after : Char) : Bool :=
  (Text.isLower before || Text.isDigit before) && Text.isUpper after

def finish (word : List Char) : List (List Char) :=
  if word.isEmpty then [] else [word.reverse]

/-- The words of a key; `word` holds the one begun, last character first. -/
def wordsFrom (word : List Char) : List Char → List (List Char)
  | [] => finish word
  | c :: cs =>
    if isSeparator c then finish word ++ wordsFrom [] cs
    else if word.head?.any fun before => endsBetween before c then
      word.reverse :: wordsFrom [c] cs
    else wordsFrom (c :: word) cs

def words (key : List Char) : List (List Char) := wordsFrom [] key

def capitalize : List Char → List Char
  | [] => []
  | c :: cs => Text.upperChars c ++ cs

/-- A key as a title: its words, each with a capital, a space between any two. -/
def ofKey (key : String) : String :=
  " ".intercalate ((words key.toList).map fun w => String.ofList (capitalize w))

/-- Takes out the first place where `part`, which is not empty, stands in a text. -/
def removeFirst (part : List Char) : List Char → List Char
  | [] => []
  | c :: cs =>
    if part.isPrefixOf (c :: cs) then (c :: cs).drop part.length else c :: removeFirst part cs

end KeyLabel

/-- The label of a key: a title for the node itself, without the mark in `html`, else the key. -/
def Facet.keyLabel (facet : Facet) (key : String) : String :=
  match facet with
  | .all => KeyLabel.ofKey key
  | .incoming | .outgoing => key
  | .html => String.ofList (KeyLabel.removeFirst htmlMark.toList key.toList)

end ContentConsole
