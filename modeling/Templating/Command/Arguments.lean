import Templating.Command.Words

/-!
# Commands

The three commands with their arguments, and how a command line gives one of them. Options of the
program stand before the name of the command; those for help and for more log output may also stand
behind it.
-/

namespace Templating

namespace Command

/-- What `render` is asked for. An absent setting is that of the configuration. -/
structure RenderArguments where
  view : String
  viewsRoot : Option String
  extension : Option String
  data : Option String
  errors : Option String
  old : Option String
  formToken : Option String
  assetBase : Option String
  devServer : Bool
  strict : Bool
  output : Option String
deriving DecidableEq, Repr

inductive CheckFormat where
  | text
  | json
deriving DecidableEq, Repr

/-- What `check` is asked for. Without paths it looks at the views directory. -/
structure CheckArguments where
  paths : List String
  extension : Option String
  format : CheckFormat
  quiet : Bool
deriving DecidableEq, Repr

structure TreeArguments where
  file : String
  compact : Bool
deriving DecidableEq, Repr

def commonOptions : List OptionSpec :=
  [⟨"verbose", some 'v', .counted⟩, ⟨"help", some 'h', .help⟩]

def programForm : Form where
  options := commonOptions ++ [⟨"version", some 'V', .version⟩]
  operands := .none

def renderForm : Form where
  options := commonOptions ++ [
    ⟨"views", none, .path⟩, ⟨"ext", none, .text⟩, ⟨"data", some 'd', .path⟩,
    ⟨"errors", none, .path⟩, ⟨"old", none, .path⟩, ⟨"csrf-token", none, .text⟩,
    ⟨"asset-base", none, .text⟩, ⟨"dev-server", none, .flag⟩, ⟨"strict", none, .flag⟩,
    ⟨"output", some 'o', .path⟩]
  operands := .text

def checkForm : Form where
  options := commonOptions ++ [
    ⟨"ext", none, .text⟩, ⟨"format", some 'f', .choice ["text", "json"]⟩,
    ⟨"quiet", some 'q', .flag⟩]
  operands := .paths

def treeForm : Form where
  options := commonOptions ++ [⟨"compact", none, .flag⟩]
  operands := .path

def RenderArguments.ofGiven (g : Given) : RenderArguments where
  view := g.operands.headD ""
  viewsRoot := g.value? "views"
  extension := g.value? "ext"
  data := g.value? "data"
  errors := g.value? "errors"
  old := g.value? "old"
  formToken := g.value? "csrf-token"
  assetBase := g.value? "asset-base"
  devServer := g.has "dev-server"
  strict := g.has "strict"
  output := g.value? "output"

def CheckArguments.ofGiven (g : Given) : CheckArguments where
  paths := g.operands
  extension := g.value? "ext"
  format := if g.value? "format" = some "json" then .json else .text
  quiet := g.has "quiet"

def TreeArguments.ofGiven (g : Given) : TreeArguments where
  file := g.operands.headD ""
  compact := g.has "compact"

end Command

inductive Command where
  | render (a : Command.RenderArguments)
  | check (a : Command.CheckArguments)
  | tree (a : Command.TreeArguments)
deriving DecidableEq, Repr

namespace Command

/-- Reads the words behind the name of a command; none for a name that no command has. -/
def named? : String → Option (List String → Except Halt Command)
  | "render" | "atelier" => some fun words => do
    return .render (.ofGiven (← renderForm.read words))
  | "check" => some fun words => do
    return .check (.ofGiven (← checkForm.read words))
  | "ast" | "relief" => some fun words => do
    return .tree (.ofGiven (← treeForm.read words))
  | _ => none

def readHelp : List String → Halt
  | [] => .help
  | [name] =>
    if (named? name).isSome || name = "help" then .help else .fault (.unknownCommand name)
  | _ :: word :: _ => .fault (.unknownCommand word)

def ofWords (words : List String) : Except Halt Command := do
  let leading := words.takeWhile isOption
  let _ ← programForm.read leading
  match words.dropWhile isOption with
  | [] => throw (.fault .missingCommand)
  | name :: words =>
    if leading.contains "--" then throw (.fault (.unexpectedOperand name))
    else if name = "help" then throw (readHelp words)
    else
      match named? name with
      | none => throw (.fault (.unknownCommand name))
      | some read => read words

end Command

end Templating
