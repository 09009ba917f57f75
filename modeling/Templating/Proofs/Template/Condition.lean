import Templating.Proofs.Template.Arguments
import Templating.Proofs.Template.Unplaced

/-!
# Conditions with and without parentheses

A condition that is an expression of one line may stand in the parentheses of `@if` or be the rest of
its line (`Condition.line_agrees`). The two are read alike, but for positions, unless the line begins
with an expression in parentheses and goes on behind it. The scanner then takes these parentheses for
those of `@if`: the expression in them is the condition, and the line goes on as text of the template.
-/

namespace Templating

open Text

/-! ## The condition at the beginning -/

def Node.condition? : Node → Option Expr
  | .conditional condition _ _ _ => some condition
  | _ => none

def Parsed.condition? (p : Parsed) : Option Expr :=
  p.root.children.head?.bind Node.condition?

theorem Node.condition?_unplaced (n : Node) : n.unplaced.condition? = n.condition? := by
  cases n with
  | conditional condition consequent alternate loc => cases alternate <;> rfl
  | _ => rfl

theorem Parsed.condition?_eq_of_unplaced {p q : Parsed} (h : p.unplaced = q.unplaced) :
    p.condition? = q.condition? := by
  have hfirst (p : Parsed) : p.condition? = p.unplaced.1.head?.bind Node.condition? := by
    rw [condition?, unplaced, List.head?_map]
    cases p.root.children.head? with
    | none => rfl
    | some n => exact (Node.condition?_unplaced n).symm
  rw [hfirst, hfirst, h]

namespace Draft

variable {ns before : List Node} {e : Expr}

/-- The condition that a run begins with. Its latest node comes first. -/
def condition? (ns : List Node) : Option Expr :=
  ns.getLast?.bind Node.condition?

theorem condition?_cons (h : condition? ns = some e) (n : Node) :
    condition? (n :: ns) = some e := by
  cases ns with
  | nil => cases h
  | cons last ns => rwa [condition?, List.getLast?_cons_cons]

theorem condition?_consText (h : condition? ns = some e) (content : String) (loc : Location) :
    condition? (consText content loc ns) = some e := by
  cases ns with
  | nil => cases h
  | cons last ns =>
    cases last with
    | text lastContent lastLoc =>
      cases ns with
      | nil => cases h
      | cons n ns =>
        have hrest : condition? (n :: ns) = some e := by
          rwa [condition?, List.getLast?_cons_cons] at h
        rw [consText]
        split
        · exact condition?_cons hrest _
        · exact condition?_cons (condition?_cons hrest _) _
    | _ => exact condition?_cons h _

theorem condition?_splice (h : condition? before = some e) (ns : List Node) :
    condition? (splice ns before) = some e := by
  induction ns with
  | nil => exact h
  | cons n ns ih =>
    cases n with
    | text content loc => exact condition?_consText ih content loc
    | _ => exact condition?_cons ih _

end Draft

theorem OpenBlock.condition?_node (e : Expr) (consequent : Option (List Node)) (body : List Node)
    (inner : List Char) (loc : Location) :
    (node (.conditional e consequent) body inner loc).condition? = some e := by
  cases consequent <;> rfl

namespace Builder

variable {source : Source} {e : Expr} {b : Builder} {d : Draft} {block : OpenBlock}
  {blocks : List OpenBlock} {ns ms : List Node}

/-- The outermost run begins with a condition, which may still be open. -/
def Begins (e : Expr) : List OpenBlock → List Node → Prop
  | [], ns => Draft.condition? ns = some e
  | block :: outer, _ =>
    Begins e outer block.before ∨
      outer = [] ∧ block.before = [] ∧ ∃ consequent, block.opened = .conditional e consequent

namespace Begins

theorem mono (h : Begins e blocks ns)
    (himp : Draft.condition? ns = some e → Draft.condition? ms = some e) : Begins e blocks ms := by
  cases blocks with
  | nil => exact himp h
  | cons block outer => exact h

theorem push (h : Begins e blocks ns) (n : Node) : Begins e blocks (n :: ns) :=
  h.mono fun h => Draft.condition?_cons h n

theorem takeOther (h : Begins e b.blocks b.draft.nodes) (kind : Directive) (args : String)
    (t : Token) :
    Begins e (takeOther source b kind args t).blocks (takeOther source b kind args t).draft.nodes := by
  have hentered := Draft.entered source b.draft kind args t
  unfold Builder.takeOther
  generalize b.draft.enter source kind args t = entered at hentered
  cases hentered with
  | @opens d' opened hnodes =>
    left
    rw [hnodes]
    exact h
  | adds => exact h.push _
  | @drops d' hnodes =>
    simp only [hnodes]
    exact h
  | stray => exact h.mono fun h => Draft.condition?_consText h _ _

theorem takeStop (h : Begins e (block :: blocks) ns) (kind : Directive) (t : Token) :
    Begins e (takeStop source d block blocks kind t).blocks
      (takeStop source d block blocks kind t).draft.nodes := by
  unfold Builder.takeStop
  split
  · obtain ⟨opened, start, stop, before⟩ := block
    rcases h with h | ⟨rfl, rfl, consequent, rfl⟩
    · left
      split <;> exact h
    · right
      cases consequent with
      | none => exact ⟨rfl, rfl, _, rfl⟩
      | some consequent => exact ⟨rfl, rfl, _, rfl⟩
  · rcases h with h | ⟨rfl, hbefore, consequent, hopened⟩
    · exact h.push _
    · simp only [OpenBlock.close, Begins, hbefore, hopened]
      exact OpenBlock.condition?_node ..

theorem take (h : Begins e b.blocks b.draft.nodes) (t : Token) :
    Begins e (take source b t).blocks (take source b t).draft.nodes := by
  obtain ⟨d, blocks⟩ := b
  cases hkind : t.kind with
  | text =>
    simp only [Builder.take, hkind]
    exact h.mono fun h => Draft.condition?_consText h _ _
  | interpolation escape content =>
    simp only [Builder.take, hkind]
    exact h.push _
  | directive kind args =>
    by_cases hk : kind ∈ stops blocks
    · cases blocks with
      | nil => cases hk
      | cons block outer =>
        rw [take_stop hkind hk]
        exact takeStop h kind t
    · rw [take_other hkind hk]
      exact takeOther h kind _ t

theorem foldl (h : Begins e b.blocks b.draft.nodes) (source : Source) (ts : List Token) :
    Begins e (ts.foldl (Builder.take source) b).blocks
      (ts.foldl (Builder.take source) b).draft.nodes := by
  induction ts generalizing b with
  | nil => exact h
  | cons t ts ih => exact ih (h.take t)

theorem abandonAll (h : Begins e blocks d.nodes) (source : Source) :
    Draft.condition? (abandonAll source d blocks).nodes = some e := by
  induction blocks generalizing d with
  | nil => exact h
  | cons block blocks ih =>
    refine ih ?_
    rw [OpenBlock.nodes_abandon]
    rcases h with h | ⟨rfl, hbefore, consequent, hopened⟩
    · exact h.mono fun h => Draft.condition?_splice h _
    · rw [hbefore, OpenBlock.remains, hopened, Draft.splice_node]
      exact OpenBlock.condition?_node ..

end Begins

theorem condition?_of_opens {m : Markers} {front rest : List Char}
    (h : Piece.Opens m front rest (.conditional e none)) :
    (parseTemplate m (String.ofList (front ++ rest))).condition? = some e := by
  have hstart : Begins e [⟨.conditional e none, 0, byteLength front, []⟩] [] :=
    .inr ⟨rfl, rfl, none, rfl⟩
  have hread := hstart.foldl (b := ⟨Draft.empty, _⟩) (Source.ofChars (front ++ rest))
    (Token.laid (byteLength front) (Piece.pieces m rest))
  rw [← read_of_opens h] at hread
  rw [Parsed.condition?, children_parseTemplate, String.toList_ofList, List.head?_reverse]
  exact hread.abandonAll _

end Builder

/-! ## Lines that are conditions -/

namespace Condition

open Piece

variable {m : Markers} {c group rest : String} {cs blanks : List Char} {e e' inner : Expr}

def onLine (c body : String) : String :=
  "@if " ++ c ++ "\n" ++ body

def inParens (c rest body : String) : String :=
  "@if(" ++ c ++ ")" ++ rest ++ "\n" ++ body

/-- The condition `c` begins with the expression `inner` in parentheses, written `group`, and `rest`
is behind them. -/
structure BeginsWithGroup (c group rest : String) (inner : Expr) : Prop where
  exists_blanks : ∃ blanks : List Char, (∀ b ∈ blanks, isInlineBlank b = true) ∧
    c.toList = blanks ++ '(' :: (group.toList ++ ')' :: rest.toList)
  accepted : Expr.parse? group = .ok inner

theorem toList_onLine (c body : String) :
    (onLine c body).toList =
      '@' :: Directive.openIf.word.toList ++ ' ' :: c.toList ++ '\n' :: body.toList := by
  simp [onLine, Directive.word]

theorem toList_inParens (c rest body : String) :
    (inParens c rest body).toList =
      written .openIf [] c.toList ++ (rest.toList ++ '\n' :: body.toList) := by
  simp [inParens, written, Directive.word]

/-- Texts that go on alike behind directives that open the same block. -/
theorem unplaced_of_toList {a b : String} {front front' more : List Char} {opened : Opened}
    (ha : a.toList = front ++ more) (hb : b.toList = front' ++ more)
    (h : Opens m front more opened) (h' : Opens m front' more opened) :
    (parseTemplate m a).unplaced = (parseTemplate m b).unplaced := by
  rw [← String.ofList_toList (s := a), ← String.ofList_toList (s := b), ha, hb]
  exact Builder.unplaced_of_opens h h'

theorem enter_openIf (h : Expr.parse? c = .ok e) (source : Source) (t : Token) :
    Draft.empty.enter source .openIf (String.ofList c.toList) t =
      (Draft.empty, some (.conditional e none)) := by
  simp only [Draft.enter, Expr.parse, String.ofList_toList, h]

theorem opens_written (hblanks : ∀ b ∈ blanks, isInlineBlank b = true) (h : Expr.parse? c = .ok e)
    (m : Markers) (more : List Char) :
    Opens m (written .openIf blanks c.toList) more (.conditional e none) :=
  ⟨.openIf, c.toList, pieces_written m rfl hblanks (spanArgs?_of_parse? h more), enter_openIf h⟩

theorem opens_line (hline : '\n' ∉ c.toList) (h : Expr.parse? c = .ok e)
    (hparen : ∀ cs, c.toList.dropWhile isInlineBlank ≠ '(' :: cs) (m : Markers) (more : List Char) :
    Opens m ('@' :: Directive.openIf.word.toList ++ ' ' :: c.toList) ('\n' :: more)
      (.conditional e none) := by
  have hvisible : (' ' :: c.toList).all isAsciiBlank = false := by
    obtain ⟨ks, hks, hderives⟩ := Expr.parse?_eq_ok_iff_takes.1 h
    obtain ⟨k, later, rfl, -⟩ := hderives.begins
    by_contra hblank
    rw [Bool.not_eq_false, List.all_eq_true] at hblank
    exact List.cons_ne_nil _ _ (hks.eq_nil_of_blank (List.forall_mem_cons.1 hblank).2)
  have hspaced : Expr.parse? (String.ofList ([' '] ++ c.toList)) = .ok e :=
    Expr.parse?_gaps (List.forall_mem_singleton.2 rfl) h
  refine ⟨.openIf, ' ' :: c.toList, pieces_line m (by simpa using hline) rfl hvisible hparen,
    fun source t => ?_⟩
  simpa using enter_openIf hspaced source t

/-- An expression in parentheses at the beginning can be read in one way only. -/
theorem BeginsWithGroup.unique {group' rest' : String} {inner' : Expr}
    (h : BeginsWithGroup c group rest inner) (h' : BeginsWithGroup c group' rest' inner') :
    rest = rest' ∧ inner = inner' := by
  obtain ⟨⟨blanks, hblanks, hsplit⟩, haccepted⟩ := h
  obtain ⟨⟨blanks', hblanks', hsplit'⟩, haccepted'⟩ := h'
  have hparens := congrArg (List.dropWhile isInlineBlank) (hsplit.symm.trans hsplit')
  rw [(span_blanks hblanks _).2, (span_blanks hblanks' _).2] at hparens
  have hspan := spanArgs?_of_parse? haccepted rest.toList
  rw [(List.cons.inj hparens).2, spanArgs?_of_parse? haccepted' rest'.toList] at hspan
  obtain ⟨hgroup, hrest⟩ := Prod.mk.inj (Option.some.inj hspan)
  rw [String.toList_inj.1 hgroup, haccepted] at haccepted'
  cases haccepted'
  exact ⟨(String.toList_inj.1 hrest).symm, rfl⟩

theorem isGap_of_isInlineBlank {b : Char} (h : isInlineBlank b = true) : Expr.isGap b = true := by
  simp only [isInlineBlank, Expr.isGap, Bool.or_eq_true] at h ⊢
  grind

/-- A condition that begins with a parenthesis begins with an expression in parentheses, and is that
expression when only blanks are behind them. -/
theorem exists_group (hc : Expr.parse? c = .ok e)
    (hparen : c.toList.dropWhile isInlineBlank = '(' :: cs) :
    ∃ group rest inner, BeginsWithGroup c group rest inner ∧
      (rest.toList.all isInlineBlank = true → inner = e) := by
  have hsplit : c.toList = c.toList.takeWhile isInlineBlank ++ '(' :: cs := by
    rw [← hparen, List.takeWhile_append_dropWhile]
  have hblanks : ∀ b ∈ c.toList.takeWhile isInlineBlank, isInlineBlank b = true :=
    List.all_eq_true.1 List.all_takeWhile
  obtain ⟨ks, hks, hderives⟩ := Expr.parse?_eq_ok_iff_takes.1 hc
  rw [hsplit] at hks
  obtain ⟨group, rest, inner, rfl, hgroup, hinner⟩ := Expr.exists_group
    (hks.of_gaps fun b hb => isGap_of_isInlineBlank (hblanks b hb)) hderives
  refine ⟨String.ofList group, String.ofList rest, inner, ⟨⟨_, hblanks, ?_⟩, hgroup⟩, fun hrest => ?_⟩
  · simpa using hsplit
  · rw [String.toList_ofList, List.all_eq_true] at hrest
    exact hinner fun b hb => isGap_of_isInlineBlank (hrest b hb)

theorem BeginsWithGroup.eq_of_blank (h : BeginsWithGroup c group rest inner)
    (hc : Expr.parse? c = .ok e) (hrest : rest.toList.all isInlineBlank = true) : inner = e := by
  obtain ⟨⟨blanks, hblanks, hsplit⟩, -⟩ := id h
  have hparen := hsplit ▸ (span_blanks hblanks (group.toList ++ ')' :: rest.toList)).2
  obtain ⟨group', rest', inner', h', hinner⟩ := exists_group hc hparen
  obtain ⟨rfl, rfl⟩ := h.unique h'
  exact hinner hrest

/-- The parentheses of an expression at the beginning are taken for those of the directive. -/
theorem unplaced_of_group (h : BeginsWithGroup c group rest inner) (m : Markers) (body : String) :
    (parseTemplate m (onLine c body)).unplaced =
      (parseTemplate m (inParens group rest body)).unplaced := by
  obtain ⟨⟨blanks, hblanks, hc⟩, hgroup⟩ := h
  have hline : (onLine c body).toList = written .openIf (' ' :: blanks) group.toList ++
      (rest.toList ++ '\n' :: body.toList) := by
    rw [toList_onLine, hc]
    simp [written]
  exact unplaced_of_toList hline (toList_inParens group rest body)
    (opens_written (List.forall_mem_cons.2 ⟨rfl, hblanks⟩) hgroup m _)
    (opens_written (List.forall_mem_nil _) hgroup m _)

theorem condition?_inParens (hc : Expr.parse? c = .ok e) (m : Markers) (rest body : String) :
    (parseTemplate m (inParens c rest body)).condition? = some e := by
  rw [← String.ofList_toList (s := inParens c rest body), toList_inParens]
  exact Builder.condition?_of_opens (opens_written (List.forall_mem_nil _) hc m _)

theorem condition?_onLine_of_group (h : BeginsWithGroup c group rest inner) (m : Markers)
    (body : String) : (parseTemplate m (onLine c body)).condition? = some inner := by
  rw [Parsed.condition?_eq_of_unplaced (unplaced_of_group h m body)]
  exact condition?_inParens h.accepted m rest body

/-- A line that does not begin with a parenthesis is read as the condition in parentheses is. -/
theorem unplaced_of_no_paren (hline : '\n' ∉ c.toList) (hc : Expr.parse? c = .ok e)
    (hparen : ∀ cs, c.toList.dropWhile isInlineBlank ≠ '(' :: cs) (m : Markers) (body : String) :
    (parseTemplate m (onLine c body)).unplaced =
      (parseTemplate m (inParens c "" body)).unplaced :=
  unplaced_of_toList (toList_onLine c body) (toList_inParens c "" body)
    (opens_line hline hc hparen m _) (opens_written (List.forall_mem_nil _) hc m _)

theorem unplaced_of_whole_group (h : BeginsWithGroup c group "" e) (hc : Expr.parse? c = .ok e)
    (m : Markers) (body : String) :
    (parseTemplate m (onLine c body)).unplaced =
      (parseTemplate m (inParens c "" body)).unplaced :=
  (unplaced_of_group h m body).trans <|
    unplaced_of_toList (toList_inParens group "" body) (toList_inParens c "" body)
      (opens_written (List.forall_mem_nil _) h.accepted m _)
      (opens_written (List.forall_mem_nil _) hc m _)

/-- A condition on its line is read as in parentheses, but for positions, and is the condition of the
first node, when it does not begin with an expression in parentheses that has something behind it.
When it does, what is in these parentheses is the condition and what is behind them is text. -/
theorem line_agrees (m : Markers) {c : String} {e : Expr} (hline : '\n' ∉ c.toList)
    (hc : Expr.parse? c = .ok e) (body : String) :
    (parseTemplate m (inParens c "" body)).condition? = some e ∧
      ((∀ group rest inner, BeginsWithGroup c group rest inner → rest = "") →
        (parseTemplate m (onLine c body)).unplaced =
            (parseTemplate m (inParens c "" body)).unplaced ∧
          (parseTemplate m (onLine c body)).condition? = some e) ∧
      ∀ group rest inner, BeginsWithGroup c group rest inner →
        (parseTemplate m (onLine c body)).unplaced =
            (parseTemplate m (inParens group rest body)).unplaced ∧
          (parseTemplate m (onLine c body)).condition? = some inner ∧
          (rest.toList.all isInlineBlank = true → inner = e) := by
  refine ⟨condition?_inParens hc m "" body, fun hwhole => ?_, fun group rest inner h => ?_⟩
  · have hsame : (parseTemplate m (onLine c body)).unplaced =
        (parseTemplate m (inParens c "" body)).unplaced := by
      by_cases hparen : ∃ cs, c.toList.dropWhile isInlineBlank = '(' :: cs
      · obtain ⟨cs, hcs⟩ := hparen
        obtain ⟨group, rest, inner, hgroup, hinner⟩ := exists_group hc hcs
        obtain rfl := hwhole group rest inner hgroup
        obtain rfl : inner = e := hinner rfl
        exact unplaced_of_whole_group hgroup hc m body
      · exact unplaced_of_no_paren hline hc (fun cs hcs => hparen ⟨cs, hcs⟩) m body
    refine ⟨hsame, ?_⟩
    rw [Parsed.condition?_eq_of_unplaced hsame]
    exact condition?_inParens hc m "" body
  · exact ⟨unplaced_of_group h m body, condition?_onLine_of_group h m body,
      fun hrest => h.eq_of_blank hc hrest⟩

/-- A condition that ends with a parenthesis, and one that begins with a parenthesis. -/
theorem line_agrees_and :
    (parseTemplate .standard (onLine "$a && ($b)" "x@endif")).unplaced =
        (parseTemplate .standard (inParens "$a && ($b)" "" "x@endif")).unplaced ∧
      (parseTemplate .standard (onLine "($a) && $b" "x@endif")).unplaced =
        (parseTemplate .standard (inParens "$a" " && $b" "x@endif")).unplaced := by
  have hfirst : Expr.parse? "$a && ($b)" =
      .ok (.logical .and (.variable "a" []) (.variable "b" [])) := by
    cbv
  have hsecond : Expr.parse? "($a) && $b" =
      .ok (.logical .and (.variable "a" []) (.variable "b" [])) := by
    cbv
  have hnone (group rest : String) (inner : Expr) :
      ¬BeginsWithGroup "$a && ($b)" group rest inner := by
    rintro ⟨⟨blanks, hblanks, hsplit⟩, -⟩
    cases blanks with
    | nil => exact absurd (List.cons.inj hsplit).1 (by decide)
    | cons b blanks =>
      obtain rfl : '$' = b := (List.cons.inj hsplit).1
      exact absurd (hblanks '$' List.mem_cons_self) (by decide)
  have hgroup : BeginsWithGroup "($a) && $b" "$a" " && $b" (.variable "a" []) :=
    ⟨⟨[], List.forall_mem_nil _, by decide⟩, by cbv⟩
  exact ⟨((line_agrees .standard (by decide) hfirst "x@endif").2.1 fun group rest inner h =>
      absurd h (hnone group rest inner)).1,
    ((line_agrees .standard (by decide) hsecond "x@endif").2.2 _ _ _ hgroup).1⟩

/-- A condition on its line that begins with an expression in parentheses may be cut short. -/
theorem not_line_agrees :
    '\n' ∉ "($a) && $b".toList ∧
      Expr.parse? "($a) && $b" = .ok (.logical .and (.variable "a" []) (.variable "b" [])) ∧
      (parseTemplate .standard (onLine "($a) && $b" "x@endif")).condition? =
        some (.variable "a" []) ∧
      (parseTemplate .standard (onLine "($a) && $b" "x@endif")).unplaced ≠
        (parseTemplate .standard (inParens "($a) && $b" "" "x@endif")).unplaced := by
  have hline : (parseTemplate .standard (onLine "($a) && $b" "x@endif")).condition? =
      some (.variable "a" []) := by
    cbv
  have hparens : (parseTemplate .standard (inParens "($a) && $b" "" "x@endif")).condition? =
      some (.logical .and (.variable "a" []) (.variable "b" [])) := by
    cbv
  refine ⟨by decide, by cbv, hline, fun hsame => ?_⟩
  have hcondition := Parsed.condition?_eq_of_unplaced hsame
  rw [hline, hparens] at hcondition
  cases hcondition

end Condition

end Templating
