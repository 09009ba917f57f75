import Templating.Proofs.Expr.Parenthesized
import Templating.Proofs.Template.Piece

/-!
# Arguments that are expressions

The scanner of arguments looks for the parenthesis that closes the first one and passes over quoted
runs. Of the tokens of an expression it takes the quoted ones for its runs and sees the parentheses
of the others, so over tokens it goes from depth to depth as their parentheses say
(`Piece.exists_passes`). An expression in parentheses is therefore what it finds between them
(`Piece.spanArgs?_of_parse?`), and behind the word of a directive the two are one piece
(`Piece.pieces_written`). Only a condition can do without the parentheses (`Piece.pieces_line`).
-/

namespace Templating

open Text Templating.Expr

namespace Piece

variable {depth inner depth' : Nat} {front back : List Char} {c : Char}

/-- The scanner of arguments goes over `front` and has `depth'` parentheses open behind it when it has
`depth` open before. -/
def Passes (depth depth' : Nat) (front : List Char) : Prop :=
  ∀ more, spanArgs? depth (front ++ more) =
    (spanArgs? depth' more).map fun (args, rest) => (front ++ args, rest)

namespace Passes

theorem nil (depth : Nat) : Passes depth depth [] := fun more => by
  simp

theorem append (h : Passes depth inner front) (h' : Passes inner depth' back) :
    Passes depth depth' (front ++ back) := fun more => by
  rw [List.append_assoc, h, h', Option.map_map]
  congr 1
  funext found
  simp

theorem plain (hc : Expr.isPlain c = true) (depth : Nat) : Passes depth depth [c] := fun more => by
  simp only [Expr.isPlain, Bool.and_eq_true, Bool.not_eq_true', bne_iff_ne] at hc
  obtain ⟨⟨hquote, hleft⟩, hright⟩ := hc
  rw [List.singleton_append, spanArgs?_cons, if_neg (by simp [hquote]), if_neg hleft, if_neg hright]
  rfl

theorem plains (hfront : ∀ c ∈ front, Expr.isPlain c = true) (depth : Nat) :
    Passes depth depth front := by
  induction front with
  | nil => exact nil depth
  | cons c front ih =>
    obtain ⟨hc, hall⟩ := List.forall_mem_cons.1 hfront
    exact (plain hc depth).append (ih hall)

theorem quoted {run : List Char} (hc : Quoted.isQuote c = true)
    (hsplit : Quoted.split? c run = some (run, [])) (depth : Nat) :
    Passes depth depth (c :: run) := fun more => by
  have hrun := Quoted.split?_run_append hsplit more
  rw [List.cons_append, spanArgs?_cons, if_pos hc, hrun, Option.bind_some]

theorem of_shape {k : Expr.TokenKind} (h : Shape front k) (hdepth : openAfter? depth [k] = some depth') :
    Passes depth depth' front := by
  cases h with
  | quoted hc hsplit s =>
    cases hdepth
    exact quoted hc hsplit depth
  | leftParen =>
    cases hdepth
    exact fun more => by rw [List.singleton_append, spanArgs?_cons]; rfl
  | rightParen =>
    cases depth with
    | zero => cases hdepth
    | succ depth =>
      cases hdepth
      exact fun more => by rw [List.singleton_append, spanArgs?_cons]; rfl
  | plain hleft hright hfront =>
    rw [openAfter?_cons hleft hright] at hdepth
    cases hdepth
    exact plains hfront depth

end Passes

theorem isPlain_of_isGap (hc : isGap c = true) : Expr.isPlain c = true :=
  Expr.isPlain_of_class rfl hc

/-- Over tokens the scanner goes from depth to depth as their parentheses say. -/
theorem exists_passes {cs rest : List Char} {ks : List Expr.TokenKind} (h : Takes cs ks rest)
    (hdepth : openAfter? depth ks = some depth') :
    ∃ front, cs = front ++ rest ∧ Passes depth depth' front := by
  induction h generalizing depth with
  | done =>
    cases hdepth
    exact ⟨[], rfl, .nil _⟩
  | @gap c cs ks rest hc _ ih =>
    obtain ⟨front, rfl, hfront⟩ := ih hdepth
    exact ⟨c :: front, rfl, (Passes.plain (isPlain_of_isGap hc) _).append hfront⟩
  | token _ hread _ ih =>
    rw [← List.singleton_append, openAfter?_append] at hdepth
    obtain ⟨inner, hinner, hdepth⟩ := Option.bind_eq_some_iff.1 hdepth
    obtain ⟨before, hbefore, hshape⟩ := readToken_shape hread
    obtain ⟨front, hfront, hpasses⟩ := ih hdepth
    refine ⟨before ++ front, ?_, (Passes.of_shape hshape hinner).append hpasses⟩
    rw [hbefore, hfront, List.append_assoc]

/-- An expression before a closing parenthesis is what the scanner of arguments finds. -/
theorem spanArgs?_of_parse? {args : String} {e : Expr} (h : Expr.parse? args = .ok e)
    (more : List Char) : spanArgs? 0 (args.toList ++ ')' :: more) = some (args.toList, more) := by
  obtain ⟨ks, hks, hderives⟩ := parse?_eq_ok_iff_takes.1 h
  obtain ⟨front, hfront, hpasses⟩ := exists_passes hks (hderives.balanced 0)
  rw [List.append_nil] at hfront
  rw [hfront, hpasses, spanArgs?_cons]
  simp [Quoted.isQuote]

/-! ## Directives at the front of a text -/

theorem isNameChar_of_mem_word (kind : Directive) :
    ∀ c ∈ kind.word.toList, isNameChar c = true := by
  have hall : kind.word.toList.all isNameChar = true := by cases kind <;> decide
  exact List.all_eq_true.1 hall

theorem isNameChar_of_isInlineBlank (h : isInlineBlank c = true) : isNameChar c = false := by
  simp only [isInlineBlank, Bool.or_eq_true, beq_iff_eq] at h
  rcases h with (rfl | rfl) | rfl <;> rfl

variable {kind : Directive} {cs args blanks more : List Char} {e : Expr}

theorem span_word (kind : Directive) (hcs : cs.head?.any isNameChar = false) :
    (kind.word.toList ++ cs).takeWhile isNameChar = kind.word.toList ∧
      (kind.word.toList ++ cs).dropWhile isNameChar = cs := by
  have hword := isNameChar_of_mem_word kind
  rw [List.takeWhile_append_of_pos hword, List.dropWhile_append_of_pos hword]
  cases cs with
  | nil => simp
  | cons c cs =>
    have hc : isNameChar c = false := hcs
    simp [hc]

theorem cut_word (m : Markers) (kind : Directive) (hcs : cs.head?.any isNameChar = false) :
    cut m '@' (kind.word.toList ++ cs) =
      if kind.takesArgs then
        (cutArgs? kind ('@' :: kind.word.toList) cs).getD (.text ('@' :: kind.word.toList), cs)
      else (.directive kind ('@' :: kind.word.toList) none, cs) := by
  have hhead : (kind.word.toList ++ cs).head? ≠ some '@' := by
    have hne : kind.word.toList ≠ [] := by cases kind <;> decide
    rw [List.head?_append_of_ne_nil _ hne]
    intro h
    exact absurd (isNameChar_of_mem_word kind '@' (List.mem_of_head? h)) (by decide)
  obtain ⟨htake, hdrop⟩ := span_word kind hcs
  rw [cut, if_pos rfl, cutAt_of_head_ne hhead, htake, hdrop, String.ofList_toList,
    Directive.ofWord?_word]

theorem span_blanks (hblanks : ∀ b ∈ blanks, isInlineBlank b = true) (cs : List Char) :
    (blanks ++ '(' :: cs).takeWhile isInlineBlank = blanks ∧
      (blanks ++ '(' :: cs).dropWhile isInlineBlank = '(' :: cs := by
  rw [List.takeWhile_append_of_pos hblanks, List.dropWhile_append_of_pos hblanks]
  exact ⟨List.append_nil blanks, rfl⟩

theorem cutArgs?_parens (kind : Directive) (word : List Char)
    (hblanks : ∀ b ∈ blanks, isInlineBlank b = true)
    (h : spanArgs? 0 (args ++ ')' :: more) = some (args, more)) :
    cutArgs? kind word (blanks ++ '(' :: (args ++ ')' :: more)) =
      some (.directive kind (word ++ blanks ++ '(' :: args ++ [')']) (some args), more) := by
  obtain ⟨htake, hdrop⟩ := span_blanks hblanks (args ++ ')' :: more)
  simp only [cutArgs?_of_paren kind word hdrop, h, htake]

def written (kind : Directive) (blanks args : List Char) : List Char :=
  '@' :: kind.word.toList ++ blanks ++ '(' :: args ++ [')']

theorem pieces_written (m : Markers) (htakes : kind.takesArgs = true)
    (hblanks : ∀ b ∈ blanks, isInlineBlank b = true)
    (h : spanArgs? 0 (args ++ ')' :: more) = some (args, more)) :
    pieces m (written kind blanks args ++ more) =
      .directive kind (written kind blanks args) (some args) :: pieces m more := by
  have hhead : (blanks ++ '(' :: (args ++ ')' :: more)).head?.any isNameChar = false := by
    cases blanks with
    | nil => rfl
    | cons c blanks => exact isNameChar_of_isInlineBlank (List.forall_mem_cons.1 hblanks).1
  have hcut := cut_word m kind hhead
  rw [if_pos htakes, cutArgs?_parens kind _ hblanks h, Option.getD_some] at hcut
  have happend : written kind blanks args ++ more =
      '@' :: (kind.word.toList ++ (blanks ++ '(' :: (args ++ ')' :: more))) := by
    simp [written]
  rw [happend, pieces, hcut]
  rfl

theorem pieces_bare (m : Markers) (htakes : kind.takesArgs = false)
    (hmore : more.head?.any isNameChar = false) :
    pieces m ('@' :: kind.word.toList ++ more) =
      .directive kind ('@' :: kind.word.toList) none :: pieces m more := by
  rw [List.cons_append, pieces, cut_word m kind hmore, if_neg (Bool.eq_false_iff.1 htakes)]

/-- A condition without parentheses goes on to the end of the line. -/
theorem pieces_line (m : Markers) {line : List Char} (hline : '\n' ∉ line)
    (hhead : line.head?.any isInlineBlank = true) (hvisible : line.all isAsciiBlank = false)
    (hparen : ∀ inner, line.dropWhile isInlineBlank ≠ '(' :: inner) :
    pieces m ('@' :: Directive.openIf.word.toList ++ line ++ '\n' :: more) =
      .directive .openIf ('@' :: Directive.openIf.word.toList ++ line) (some line) ::
        pieces m ('\n' :: more) := by
  have hin : ∀ c ∈ line, (c != '\n') = true := fun c hc => by
    rw [bne_iff_ne]
    rintro rfl
    exact hline hc
  have htake : (line ++ '\n' :: more).takeWhile (· != '\n') = line := by
    rw [List.takeWhile_append_of_pos hin]
    exact List.append_nil line
  have hdrop : (line ++ '\n' :: more).dropWhile (· != '\n') = '\n' :: more := by
    rw [List.dropWhile_append_of_pos hin]
    rfl
  have hnone : ¬∃ inner, (line ++ '\n' :: more).dropWhile isInlineBlank = '(' :: inner := by
    rintro ⟨inner, hinner⟩
    rw [List.dropWhile_append] at hinner
    split at hinner
    · cases hinner
    · cases hrest : line.dropWhile isInlineBlank with
      | nil => simp_all
      | cons c cs =>
        rw [hrest] at hinner
        obtain ⟨rfl, -⟩ := List.cons.inj hinner
        exact hparen cs hrest
  obtain ⟨c, cs, rfl⟩ := List.exists_cons_of_ne_nil (l := line) (by rintro rfl; cases hhead)
  have hc : isInlineBlank c = true := hhead
  have hname : (c :: cs ++ '\n' :: more).head?.any isNameChar = false :=
    isNameChar_of_isInlineBlank hc
  have htakes : Directive.openIf.takesArgs = true := rfl
  have hcut := cut_word m .openIf hname
  rw [if_pos htakes, cutArgs?_of_no_paren _ _ hnone, cutLine?, htake, hdrop,
    if_pos ⟨rfl, by simpa using hc, by simp [hvisible]⟩, Option.getD_some] at hcut
  rw [List.append_assoc, List.cons_append, pieces, hcut]

end Piece

end Templating
