import Templating.Expr.Parser
import Templating.Template.Error
import Templating.Template.Node
import Templating.Template.Token

/-!
# Parsing templates

A template is parsed by recursive descent over its tokens. A run of nodes is read up to the first
directive that ends it (`readRun`); which directives do depends on the block it stands in. A
directive that opens a block has the block read to its end (`readBlock`) before the run goes on, so
an `@else` and a closing directive always belong to the innermost block. Both hand on a `Draft`: the
nodes of the run and the errors met so far.

No template is refused. A closing directive that closes nothing stays as text, apart from
`@endsection`, which is dropped. A block that is never closed goes on to the end; an error block is
then undone and its nodes join the run around it.
-/

namespace Templating

/-- The head of an open block. A condition keeps its first branch once an `@else` has come. -/
inductive Opened where
  | conditional (condition : Expr) (consequent : Option (List Node))
  | loop (source : Expr) (key : Option String) (item : String)
  | errorBlock (field : Expr)
  | sectionBlock (name : String)

namespace Opened

def opener : Opened → Directive
  | .conditional .. => .openIf
  | .loop .. => .openForeach
  | .errorBlock _ => .openError
  | .sectionBlock _ => .openSection

def stops : Opened → List Directive
  | .conditional .. => [.otherwise, .endIf]
  | .loop .. => [.endForeach]
  | .errorBlock _ => [.endError]
  | .sectionBlock _ => [.endSection]

end Opened

/-- The nodes of a run and the errors met so far, both with the latest first. -/
structure Draft where
  nodes : List Node
  errors : List TemplateError

namespace Draft

def empty : Draft := ⟨[], []⟩

def push (d : Draft) (n : Node) : Draft :=
  { d with nodes := n :: d.nodes }

def consText (content : String) (loc : Location) : List Node → List Node
  | .text last lastLoc :: ns =>
    if lastLoc.stop.offset = loc.start.offset then
      .text (last ++ content) ⟨lastLoc.start, loc.stop⟩ :: ns
    else .text content loc :: .text last lastLoc :: ns
  | ns => .text content loc :: ns

def consNode (n : Node) (ns : List Node) : List Node :=
  match n with
  | .text content loc => consText content loc ns
  | n => n :: ns

def pushText (d : Draft) (cs : List Char) (loc : Location) : Draft :=
  { d with nodes := consText (String.ofList cs) loc d.nodes }

def report (d : Draft) (fault : TemplateFault) (loc : Location) : Draft :=
  { d with errors := ⟨fault, loc⟩ :: d.errors }

def stray (source : Source) (d : Draft) (kind : Directive) (t : Token) : Draft :=
  let loc := source.location t.start t.stop
  (d.report (.unexpectedCloser kind) loc).pushText t.lexeme loc

/-- A loop. A header that cannot be read is an error, and the loop then visits nothing. -/
def enterLoop (source : Source) (d : Draft) (args : String) (t : Token) : Draft × Option Opened :=
  match Expr.parseLoopHeader? args with
  | .ok h => (d, some (.loop h.source h.key h.item))
  | .error cause =>
    (d.report (.invalidLoopHeader cause) (source.location t.start t.stop),
      some (.loop (.invalid (Text.trim args)) none ""))

/-- A section: a block when only its name is given, a value when there is a second argument. -/
def enterSection (source : Source) (d : Draft) (args : String) (t : Token) :
    Draft × Option Opened :=
  let loc := source.location t.start t.stop
  match Expr.parseArguments args with
  | [] => (d.report (.missingArgs .openSection) loc, none)
  | first :: others =>
    match first.staticName?, others with
    | none, _ => (d.report (.missingArgs .openSection) loc, none)
    | some name, [] => (d, some (.sectionBlock name))
    | some name, value :: _ => (d.push (.sectionValue name value loc), none)

def yieldNode (args : String) (loc : Location) : Node :=
  match Expr.parseArguments args with
  | [] => .yieldSection (Expr.parse args) none loc
  | [name] => .yieldSection name none loc
  | name :: default :: _ => .yieldSection name (some default) loc

def pushLayout (source : Source) (d : Draft) (args : String) (t : Token) : Draft :=
  let loc := source.location t.start t.stop
  match (Expr.parseArguments args).head?.bind Expr.staticName? with
  | some layout => d.push (.extendsLayout layout loc)
  | none => d.report (.missingArgs .extendsLayout) loc

/-- What a directive that does not end the run adds to it, and the head of the block that it opens,
if it opens one. -/
def enter (source : Source) (d : Draft) (kind : Directive) (args : String) (t : Token) :
    Draft × Option Opened :=
  let loc := source.location t.start t.stop
  match kind with
  | .openIf => (d, some (.conditional (Expr.parse args) none))
  | .openForeach => enterLoop source d args t
  | .openError => (d, some (.errorBlock (Expr.parse args)))
  | .openSection => enterSection source d args t
  | .extendsLayout => (pushLayout source d args t, none)
  | .includeView => (d.push (.includeView (Expr.parse args) loc), none)
  | .yieldSection => (d.push (yieldNode args loc), none)
  | .csrf => (d.push (.csrf loc), none)
  | .asset => (d.push (.asset .asset (Expr.parse args) loc), none)
  | .vite => (d.push (.asset .vite (Expr.parse args) loc), none)
  | .endSection => (d, none)
  | .otherwise => (stray source d .otherwise t, none)
  | .endIf => (stray source d .endIf t, none)
  | .endForeach => (stray source d .endForeach t, none)
  | .endError => (stray source d .endError t, none)

end Draft

/-- A block that is being read: its head, the offsets of the opening directive, and the nodes before
the block in the run that holds it, the latest first. -/
structure OpenBlock where
  opened : Opened
  start : Nat
  stop : Nat
  before : List Node

namespace OpenBlock

/-- Whether an error block is written on one line: blanks at both ends of what stands between its
directives, no line end there, and no block among its nodes. -/
def isOneLine (inner : List Char) (body : List Node) : Bool :=
  let isPad (c : Char) := c == ' ' || c == '\t'
  inner.head?.any isPad && inner.getLast?.any isPad && !inner.contains '\n' &&
    !body.any Node.isBlock

def node (opened : Opened) (body : List Node) (inner : List Char) (loc : Location) : Node :=
  match opened with
  | .conditional condition none => .conditional condition body none loc
  | .conditional condition (some consequent) => .conditional condition consequent (some body) loc
  | .loop source key item => .loop source key item body loc
  | .errorBlock field => .errorBlock field body (isOneLine inner body) loc
  | .sectionBlock name => .sectionBlock name body loc

def close (source : Source) (block : OpenBlock) (t : Token) (d : Draft) : Draft :=
  let inner := source.slice block.stop t.start
  { d with
    nodes := node block.opened d.nodes.reverse inner (source.location block.start t.stop) ::
      block.before }

def abandon (source : Source) (block : OpenBlock) (d : Draft) : Draft :=
  let nodes := match block.opened with
    | .errorBlock _ => d.nodes.foldr Draft.consNode block.before
    | opened =>
      node opened d.nodes.reverse [] (source.location block.start source.length) :: block.before
  ⟨nodes, ⟨.unclosedBlock block.opened.opener, source.location block.start block.stop⟩ :: d.errors⟩

/-- The block and the run in it after the `@else` `t`. The second one of a condition is an error,
and what follows it still joins the other branch. -/
def switch (source : Source) (block : OpenBlock) (t : Token) (d : Draft) : OpenBlock × Draft :=
  match block.opened with
  | .conditional condition none =>
    ({ block with opened := .conditional condition (some d.nodes.reverse) }, { d with nodes := [] })
  | _ => (block, d.report .duplicateElse (source.location t.start t.stop))

end OpenBlock

/-- How a run of nodes in `input` ended: with the tokens, or at a directive that ends it. -/
inductive Halt (input : List Token) where
  | atEnd (draft : Draft)
  | atStop (draft : Draft) (kind : Directive) (t : Token) (rest : List Token)
      (shorter : rest.length < input.length)

def Halt.draft {input : List Token} : Halt input → Draft
  | .atEnd draft => draft
  | .atStop draft _ _ _ _ => draft

structure AfterBlock (input : List Token) where
  draft : Draft
  rest : List Token
  within : rest.length ≤ input.length

mutual

def readRun (source : Source) (stops : List Directive) (input ts : List Token)
    (within : ts.length ≤ input.length) (d : Draft) : Halt input :=
  match ts, within with
  | [], _ => .atEnd d
  | t :: rest, within =>
    match t.kind with
    | .text =>
      readRun source stops input rest (Nat.le_of_lt within)
        (d.pushText t.lexeme (source.location t.start t.stop))
    | .interpolation escape content =>
      readRun source stops input rest (Nat.le_of_lt within)
        (d.push (.interpolation (Expr.parse (String.ofList content)) escape
          (source.location t.start t.stop)))
    | .directive kind args =>
      if kind ∈ stops then .atStop d kind t rest within
      else
        match d.enter source kind (String.ofList (args.getD [])) t with
        | (d, none) => readRun source stops input rest (Nat.le_of_lt within) d
        | (d, some opened) =>
          let after := readBlock source ⟨opened, t.start, t.stop, d.nodes⟩ rest rest
            (Nat.le_refl _) { d with nodes := [] }
          readRun source stops input after.rest
            (Nat.le_trans after.within (Nat.le_of_lt within)) after.draft
termination_by (ts.length, 0)
decreasing_by
  · exact .left _ _ (Nat.lt_succ_self _)
  · exact .left _ _ (Nat.lt_succ_self _)
  · exact .left _ _ (Nat.lt_succ_self _)
  · exact .left _ _ (Nat.lt_succ_self _)
  · exact .left _ _ (Nat.lt_succ_of_le after.within)

def readBlock (source : Source) (block : OpenBlock) (input ts : List Token)
    (within : ts.length ≤ input.length) (d : Draft) : AfterBlock input :=
  match readRun source block.opened.stops ts ts (Nat.le_refl _) d with
  | .atEnd d => ⟨block.abandon source d, [], Nat.zero_le _⟩
  | .atStop d kind t rest shorter =>
    let within := Nat.le_trans (Nat.le_of_lt shorter) within
    if kind = .otherwise then
      readBlock source (block.switch source t d).1 input rest within (block.switch source t d).2
    else ⟨block.close source t d, rest, within⟩
termination_by (ts.length, 1)
decreasing_by
  · exact .right _ Nat.zero_lt_one
  · exact .left _ _ shorter

end

def TokenFault.toFault : TokenFault → TemplateFault
  | .unclosedArgs => .unclosedArgs
  | .unclosedInterpolation => .unclosedInterpolation

def parseTokens (source : Source) (ts : List Token) : List Node × List TemplateError :=
  let draft := (readRun source [] ts ts (Nat.le_refl _) Draft.empty).draft
  (draft.nodes.reverse, draft.errors.reverse)

/-- A parsed template and its errors, those that show in the tokens first. -/
structure Parsed where
  root : Root
  errors : List TemplateError
deriving Inhabited

def parseTemplate (m : Markers) (text : String) : Parsed :=
  let cs := text.toList
  let source := Source.ofChars cs
  let (children, errors) := parseTokens source (Token.tokens m cs)
  let early := (Token.errors m cs).map fun e =>
    { fault := e.fault.toFault, loc := source.location e.start e.stop : TemplateError }
  { root := ⟨children, source.location 0 source.length⟩, errors := early ++ errors }

end Templating
