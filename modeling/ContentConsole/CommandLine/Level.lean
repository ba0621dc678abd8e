import ContentConsole.Inspector.Facet

set_option autoImplicit false
set_option relaxedAutoImplicit false

/-!
The grammar of the command line. The program is a level; each command below it is a level of its
own, and takes the options of its own beside the common ones.
-/
namespace ContentConsole.CommandLine

inductive Opt
  | help
  | version
  | config
  | outputFormat
  | quiet
  | verbose
  | file
  | id
  | resource
  | expand
  | type
  | view
  | access
  | yes
  | parent
  | output
  | force
deriving DecidableEq, Repr

namespace Opt

def long : Opt → String
  | .help => "help"
  | .version => "version"
  | .config => "config"
  | .outputFormat => "output-format"
  | .quiet => "quiet"
  | .verbose => "verbose"
  | .file => "file"
  | .id => "id"
  | .resource => "resource"
  | .expand => "expand"
  | .type => "type"
  | .view => "view"
  | .access => "access"
  | .yes => "yes"
  | .parent => "parent"
  | .output => "output"
  | .force => "force"

def short? : Opt → Option Char
  | .help => some 'h'
  | .version => some 'V'
  | .config => some 'c'
  | .outputFormat => some 'o'
  | .quiet => some 'q'
  | .verbose => some 'v'
  | .file | .force => some 'f'
  | .expand => some 'e'
  | .type => some 't'
  | .yes => some 'y'
  | .id | .resource | .view | .access | .parent | .output => none

def takesValue : Opt → Bool
  | .config | .outputFormat | .file | .id | .resource | .expand | .type | .view
      | .parent | .output =>
    true
  | .help | .version | .quiet | .verbose | .access | .yes | .force => false

def isRepeatable (o : Opt) : Bool := o = .expand

/-- A path is not empty, and a view is the name of a facet. -/
def admits (o : Opt) (value : String) : Bool :=
  match o with
  | .config | .file => !value.isEmpty
  | .view => (Facet.ofText? value).isSome
  | _ => true

def common : List Opt := [.help, .version, .config, .outputFormat, .quiet, .verbose]

end Opt

inductive Level
  | program
  | tree
  | inspect
  | rename
  | set
  | delete
  | expansion
  | expansionList
  | expansionAdd
  | expansionRemove
  | expansionForget
  | expansionClear
  | config
  | configShow
  | configValidate
  | configInit
deriving DecidableEq, Repr

namespace Level

def name : Level → String
  | .program => "entity-console"
  | .tree => "tree"
  | .inspect => "inspect"
  | .rename => "rename"
  | .set => "set"
  | .delete => "delete"
  | .expansion => "expansion"
  | .expansionList => "list"
  | .expansionAdd => "add"
  | .expansionRemove => "remove"
  | .expansionForget => "forget"
  | .expansionClear => "clear"
  | .config => "config"
  | .configShow => "show"
  | .configValidate => "validate"
  | .configInit => "init"

def commands : Level → List Level
  | .program => [.tree, .inspect, .rename, .set, .delete, .expansion, .config]
  | .expansion =>
    [.expansionList, .expansionAdd, .expansionRemove, .expansionForget, .expansionClear]
  | .config => [.configShow, .configValidate, .configInit]
  | _ => []

def command? (level : Level) (word : String) : Option Level :=
  level.commands.find? fun l => l.name == word

/-- The number of words that a level takes beside its options. -/
def operands : Level → Nat
  | .inspect | .delete | .expansionAdd | .expansionRemove | .expansionForget => 1
  | .rename => 2
  | .set => 3
  | _ => 0

private def ownOptions : Level → List Opt
  | .tree => [.file, .id, .resource, .expand]
  | .inspect => [.type, .view, .access]
  | .delete => [.yes]
  | .expansionAdd | .expansionRemove => [.parent, .resource]
  | .configInit => [.output, .force]
  | _ => []

def options (level : Level) : List Opt := Opt.common ++ ownOptions level

def longOption? (level : Level) (name : String) : Option Opt :=
  level.options.find? fun o => o.long == name

def shortOption? (level : Level) (letter : Char) : Option Opt :=
  level.options.find? fun o => o.short? == some letter

end Level

end ContentConsole.CommandLine
