import Templating.Entries

/-!
# Words of a command line

A command takes options and operands. A word that begins with a hyphen and goes on after it gives
options: `--name`, `--name=value`, or letters behind one hyphen. The value of an option is what
follows it in the same word or else the next word, which must not look like an option. Every other
word is an operand, and so is every word behind `--`.

Words are read from left to right, and the first one that is a mistake or asks for help ends the
reading.
-/

namespace Templating.Command

inductive UsageFault where
  | unknownOption (word : String)
  | repeatedOption (name : String)
  | missingValue (name : String)
  | unexpectedValue (name : String)
  | invalidValue (name value : String)
  | missingOperand
  | unexpectedOperand (word : String)
  | missingCommand
  | unknownCommand (name : String)
deriving DecidableEq, Repr

def UsageFault.message : UsageFault → String
  | .unknownOption word => "unexpected option '" ++ word ++ "'"
  | .repeatedOption name => "option '--" ++ name ++ "' is given more than once"
  | .missingValue name => "option '--" ++ name ++ "' needs a value"
  | .unexpectedValue name => "option '--" ++ name ++ "' takes no value"
  | .invalidValue name value => "invalid value '" ++ value ++ "' for '" ++ name ++ "'"
  | .missingOperand => "an argument is missing"
  | .unexpectedOperand word => "unexpected argument '" ++ word ++ "'"
  | .missingCommand => "a command is missing"
  | .unknownCommand name => "unknown command '" ++ name ++ "'"

inductive Halt where
  | help
  | version
  | fault (fault : UsageFault)
deriving DecidableEq, Repr

/-- What an option is for. A flag says yes, a counted flag may do so more than once, and the value
of a `path` is not empty. -/
inductive OptionKind where
  | flag
  | counted
  | text
  | path
  | choice (choices : List String)
  | help
  | version
deriving DecidableEq, Repr

def OptionKind.takesValue : OptionKind → Bool
  | .text | .path | .choice _ => true
  | .flag | .counted | .help | .version => false

def OptionKind.admits : OptionKind → String → Bool
  | .path, value => value ≠ ""
  | .choice choices, value => choices.contains value
  | _, _ => true

structure OptionSpec where
  name : String
  letter : Option Char
  kind : OptionKind
deriving DecidableEq, Repr

inductive OperandKind where
  | none
  | text
  | path
  | paths
deriving DecidableEq, Repr

structure Form where
  options : List OptionSpec
  operands : OperandKind
deriving DecidableEq, Repr

/-- What has been read: the options in order, a flag with an empty value, and the operands. -/
structure Given where
  options : Entries String
  operands : List String
deriving DecidableEq, Repr

namespace Given

def empty : Given := ⟨[], []⟩

def has (g : Given) (name : String) : Bool :=
  Entries.contains name g.options

def value? (g : Given) (name : String) : Option String :=
  Entries.find? name g.options

end Given

def isOption (word : String) : Bool :=
  word.startsWith "-" && word != "-"

def Given.addOption (g : Given) (spec : OptionSpec) (value : Option String) :
    Except Halt Given :=
  match spec.kind with
  | .help => .error .help
  | .version => .error .version
  | kind =>
    if kind ≠ .counted && g.has spec.name then .error (.fault (.repeatedOption spec.name))
    else
      let value := value.getD ""
      if kind.admits value then .ok { g with options := Entries.insert spec.name value g.options }
      else .error (.fault (.invalidValue spec.name value))

def Given.addOperand (g : Given) (kind : OperandKind) (word : String) : Except Halt Given :=
  let added := { g with operands := g.operands ++ [word] }
  let single := if g.operands.isEmpty then .ok added else .error (.fault (.unexpectedOperand word))
  match kind with
  | .none => .error (.fault (.unexpectedOperand word))
  | .text => single
  | .path => if word = "" then .error (.fault (.invalidValue "path" word)) else single
  | .paths => if word = "" then .error (.fault (.invalidValue "path" word)) else .ok added

namespace Form

/-- Reads letters behind a hyphen. A last letter whose option lacks its value is left over. -/
def readLetters (form : Form) (word : String) :
    Given → List Char → Except Halt (Given × Option OptionSpec)
  | g, [] => .ok (g, none)
  | g, c :: cs =>
    match form.options.find? (·.letter == some c) with
    | none => .error (.fault (.unknownOption word))
    | some spec =>
      if spec.kind.takesValue then
        match cs with
        | [] => .ok (g, some spec)
        | '=' :: value => do return (← g.addOption spec (some (String.ofList value)), none)
        | value => do return (← g.addOption spec (some (String.ofList value)), none)
      else do readLetters form word (← g.addOption spec none) cs

def readName (form : Form) (word : String) (g : Given) (cs : List Char) :
    Except Halt (Given × Option OptionSpec) :=
  match form.options.find? (·.name == String.ofList (cs.takeWhile (· ≠ '='))) with
  | none => .error (.fault (.unknownOption word))
  | some spec =>
    match cs.dropWhile (· ≠ '='), spec.kind.takesValue with
    | [], true => .ok (g, some spec)
    | [], false => do return (← g.addOption spec none, none)
    | _ :: value, true => do return (← g.addOption spec (some (String.ofList value)), none)
    | _ :: _, false => .error (.fault (.unexpectedValue spec.name))

def readOptions (form : Form) (g : Given) (word : String) :
    Except Halt (Given × Option OptionSpec) :=
  match word.toList with
  | '-' :: '-' :: cs => form.readName word g cs
  | '-' :: cs => form.readLetters word g cs
  | _ => .error (.fault (.unknownOption word))

def readFrom (form : Form) : Given → List String → Except Halt Given
  | g, [] => .ok g
  | g, word :: words =>
    if word = "--" then words.foldlM (·.addOperand form.operands ·) g
    else if isOption word then
      match form.readOptions g word with
      | .error halt => .error halt
      | .ok (g, none) => readFrom form g words
      | .ok (g, some spec) =>
        match words with
        | [] => .error (.fault (.missingValue spec.name))
        | value :: words =>
          if isOption value then .error (.fault (.missingValue spec.name))
          else
            match g.addOption spec (some value) with
            | .error halt => .error halt
            | .ok g => readFrom form g words
    else
      match g.addOperand form.operands word with
      | .error halt => .error halt
      | .ok g => readFrom form g words

/-- Reads the words of a command. An operand that the command needs has to be there. -/
def read (form : Form) (words : List String) : Except Halt Given := do
  let g ← form.readFrom .empty words
  match form.operands, g.operands with
  | .text, [] | .path, [] => throw (.fault .missingOperand)
  | _, _ => return g

end Form

end Templating.Command
