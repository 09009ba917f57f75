import Templating.Render.Engine

/-!
# Rendering step by step

The renderer as a machine that takes one step after the other. What a frame tells a render is in a
store here, which the steps change: a view comes on the stack when it is entered and goes when it
has ended, be it with a text or an error, and the sections at hand give way to those that a layout
is given and come back after it. What is done with the result of a call is pending, the innermost
first.

Nothing but the stack bounds the machine: a view may be entered when it is not in progress and the
stack is shorter than the limit.
-/

namespace Templating

/-- What is rendered next. Trees and loops go on behind the text `out`. -/
inductive Call where
  | page (name : String)
  | root (root : Root)
  | sections (todo : List Section) (done : Entries String) (body layout : String)
  | inclusion (name : String)
  | nodes (mode : SectionMode) (todo : List Node) (out : String)
  | node (mode : SectionMode) (n : Node)
  | turns (mode : SectionMode) (key : Option String) (item : String) (body : List Node)
      (todo : List (Value × Value)) (out : String)

/-- What is done with the result of a call. `leave` ends the view of that name, `scope` and `layout`
put back what was there before an error block and before a layout; the others go on with a text. -/
inductive Pending where
  | leave (name : String)
  | scope (ctx : Context) (oneLine : Bool)
  | layout (ctx : Context) (sections : Entries String)
  | body (root : Root)
  | sections (name : String) (todo : List Section) (done : Entries String) (body layout : String)
  | nodes (mode : SectionMode) (todo : List Node) (out : String)
  | turns (mode : SectionMode) (key : Option String) (item : String) (body : List Node)
      (todo : List (Value × Value)) (out : String)

structure Asked where
  view : String
  stack : List String
  sections : Entries String

/-- What the steps change. `stack` has the view that was entered last first, and `asked` what was
asked for last. -/
structure Store where
  context : Context
  cache : Cache
  stack : List String
  sections : Entries String
  asked : List Asked

def Store.initial (ctx : Context) (cache : Cache) : Store :=
  ⟨ctx, cache, [], [], []⟩

def Store.ask (s : Store) (name : String) : Store :=
  { s with asked := ⟨name, s.stack, s.sections⟩ :: s.asked }

inductive Control where
  | call (call : Call)
  | result (result : Except RenderError String)

structure Machine where
  control : Control
  pending : List Pending
  store : Store

/-- The context in a turn of a loop, in which the key is bound before the item. -/
def Context.bindTurn (ctx : Context) (key : Option String) (item : String) (turn : Value × Value) :
    Context :=
  (key.elim ctx fun name => ctx.bind name turn.1).bind item turn.2

namespace Machine

def call (c : Call) (pending : List Pending) (s : Store) : Machine :=
  ⟨.call c, pending, s⟩

def give (result : Except RenderError String) (pending : List Pending) (s : Store) : Machine :=
  ⟨.result result, pending, s⟩

end Machine

namespace Renderer

open Machine

def fetch (r : Renderer) (name : String) (cache : Cache) : Except RenderError Parsed × Cache :=
  let (found, s) := r.load name ⟨Context.empty, cache, []⟩
  (found, s.cache)

/-- Goes on inside a view with `inside`, unless the view is in progress or the stack is full. -/
def enter (r : Renderer) (name : String) (inside : Call) (pending : List Pending) (s : Store) :
    Machine :=
  if name ∈ s.stack then give (.error (.circular (cycleOf s.stack name))) pending s
  else if r.options.maxDepth ≤ s.stack.length then
    give (.error (.depthExceeded r.options.maxDepth)) pending s
  else call inside (.leave name :: pending) { s with stack := name :: s.stack }

def beginPage (r : Renderer) (name : String) (pending : List Pending) (s : Store) : Machine :=
  let (found, cache) := r.fetch name s.cache
  let s := { s.ask name with cache := cache }
  match found with
  | .error e => give (.error e) pending s
  | .ok parsed => r.enter name (.root parsed.root) pending s

def beginInclusion (r : Renderer) (name : String) (pending : List Pending) (s : Store) : Machine :=
  if name = "" then give (.ok "") pending s
  else
    let (found, cache) := r.fetch name s.cache
    let s := { s.ask name with cache := cache }
    match found with
    | .error (.viewNotFound _ _) => give (.ok "") pending s
    | .error e => give (.error e) pending s
    | .ok parsed => r.enter name (.nodes .inPlace parsed.root.children "") pending s

/-- Compiles the next section that has a new name; after the last one the layout is rendered. -/
def beginSections (r : Renderer) (todo : List Section) (done : Entries String)
    (body layout : String) (pending : List Pending) (s : Store) : Machine :=
  match todo with
  | [] =>
    let sections := handSections s.sections done body
    call (.page layout) (.layout s.context s.sections :: pending)
      { s with context := layoutContext s.context sections, sections := sections }
  | part :: todo =>
    if Entries.contains part.name done then call (.sections todo done body layout) pending s
    else
      match part with
      | .block name tree =>
        call (.nodes .setAside tree "") (.sections name todo done body layout :: pending) s
      | .value name expr =>
        let text := r.evaluator.output s.context expr
        call (.sections todo (Entries.insert name text done) body layout) pending s

def beginNode (r : Renderer) (mode : SectionMode) (n : Node) (pending : List Pending) (s : Store) :
    Machine :=
  match n with
  | .text content _ => give (.ok content) pending s
  | .interpolation expr escape _ =>
    give (.ok (r.interpolationText s.context expr escape)) pending s
  | .conditional condition consequent alternate _ =>
    if r.evaluator.condition s.context condition then call (.nodes mode consequent "") pending s
    else
      match alternate with
      | none => give (.ok "") pending s
      | some alternate => call (.nodes mode alternate "") pending s
  | .loop source key item body _ =>
    let turns := (r.evaluator.eval s.context source).loopEntries
    call (.turns mode key item body turns "") pending s
  | .includeView view _ => call (.inclusion (r.evaluator.output s.context view)) pending s
  | .errorBlock field body oneLine _ =>
    match r.messageFor? s.context (r.evaluator.output s.context field) with
    | none => give (.ok "") pending s
    | some message =>
      call (.nodes mode body "") (.scope s.context oneLine :: pending)
        { s with context := s.context.bind "message" message }
  | .yieldSection name default _ =>
    give (.ok (r.yieldText s.context s.sections name default)) pending s
  | .sectionBlock _ body _ =>
    match mode with
    | .setAside => give (.ok "") pending s
    | .inPlace => call (.nodes mode body "") pending s
  | .sectionValue _ _ _ => give (.ok "") pending s
  | .extendsLayout _ _ => give (.ok "") pending s
  | .csrf _ => give (.ok r.formField) pending s
  | .asset kind paths _ => give (.ok (r.assetText s.context kind paths)) pending s

def begin (r : Renderer) (c : Call) (pending : List Pending) (s : Store) : Machine :=
  match c with
  | .page name => r.beginPage name pending s
  | .root root => call (.nodes .setAside root.children "") (.body root :: pending) s
  | .sections todo done body layout => r.beginSections todo done body layout pending s
  | .inclusion name => r.beginInclusion name pending s
  | .nodes _ [] out => give (.ok out) pending s
  | .nodes mode (n :: todo) out => call (.node mode n) (.nodes mode todo out :: pending) s
  | .node mode n => r.beginNode mode n pending s
  | .turns _ _ _ _ [] out => give (.ok out) pending s
  | .turns mode key item body (turn :: todo) out =>
    call (.nodes mode body "") (.turns mode key item body todo out :: pending)
      { s with context := s.context.bindTurn key item turn }

/-- What is done with the result of a call. An error ends what would go on with a text. -/
def resume (k : Pending) (result : Except RenderError String) (pending : List Pending) (s : Store) :
    Machine :=
  match k, result with
  | .leave _, result => give result pending { s with stack := s.stack.tail }
  | .scope ctx oneLine, result =>
    give (result.map fun text => if oneLine then Text.trim text ++ " " else text) pending
      { s with context := ctx }
  | .layout ctx sections, result =>
    give result pending { s with context := ctx, sections := sections }
  | .body _, .error e => give (.error e) pending s
  | .body root, .ok text =>
    match Node.firstLayout? root.children with
    | none => give (.ok text) pending s
    | some layout => call (.sections (Section.ofNodes root.children) [] text layout) pending s
  | .sections _ _ _ _ _, .error e => give (.error e) pending s
  | .sections name todo done body layout, .ok text =>
    call (.sections todo (Entries.insert name text done) body layout) pending s
  | .nodes _ _ _, .error e => give (.error e) pending s
  | .nodes mode todo out, .ok text => call (.nodes mode todo (out ++ text)) pending s
  | .turns _ _ _ _ _ _, .error e => give (.error e) pending s
  | .turns mode key item body todo out, .ok text =>
    call (.turns mode key item body todo (out ++ text)) pending s

/-- The machine after its next step; it has ended when the result is there and nothing is pending. -/
def next? (r : Renderer) (m : Machine) : Option Machine :=
  match m.control, m.pending with
  | .call c, pending => some (r.begin c pending m.store)
  | .result result, k :: pending => some (resume k result pending m.store)
  | .result _, [] => none

/-- The machine after so many more steps, or fewer if it ends before. -/
def run (r : Renderer) : Nat → Machine → Machine
  | 0, m => m
  | steps + 1, m =>
    match r.next? m with
    | none => m
    | some m => run r steps m

/-- The machine where a render begins. A template that is refused is not rendered. -/
def start (r : Renderer) (entry : Entry) (ctx : Context) (cache : Cache) : Machine :=
  match entry with
  | .view name => call (.page name) [] (.initial ctx cache)
  | .source text =>
    match r.check inlineName (parseTemplate r.options.markers text) with
    | .error e => give (.error e) [] (.initial ctx cache)
    | .ok parsed => call (.root parsed.root) [] (.initial ctx cache)

end Renderer

end Templating
