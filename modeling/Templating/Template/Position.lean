import Templating.Ascending
import Templating.Text.Bytes

/-!
# Positions in a template

A position is a byte offset together with its line and column, all counted in 32 bits; lines and
columns begin at one. A `Source` is a template text with the offsets of its line ends, which
`Source.position` searches for the line of an offset: a line end belongs to the line it ends.
-/

namespace Templating

structure Position where
  offset : Nat
  line : Nat
  column : Nat
deriving DecidableEq, Repr, Inhabited

structure Location where
  start : Position
  stop : Position
deriving DecidableEq, Repr, Inhabited

/-- The offsets of the line ends of a text that begins at `offset`. -/
def newlinesFrom (offset : Nat) : List Char → List Nat
  | [] => []
  | c :: cs =>
    (if c = '\n' then [offset] else []) ++ newlinesFrom (offset + c.utf8Size) cs

structure Source where
  chars : List Char
  length : Nat
  newlines : List Nat
deriving Inhabited

namespace Source

def ofChars (cs : List Char) : Source :=
  ⟨cs, Text.byteLength cs, newlinesFrom 0 cs⟩

def word (n : Nat) : Nat :=
  n % 4294967296

/-- The position of an offset. Its line is the same whether a line end stands there or not, and its
column is the distance from the line end before that line; on the first line, which has none before
it, the column counts from the beginning. -/
def position (source : Source) (offset : Nat) : Position :=
  let line := (Ascending.search source.newlines offset).index + 1
  let column := if line = 1 then offset + 1 else offset - source.newlines.getD (line - 2) 0
  { offset := word offset
    line := word line
    column := word column }

def location (source : Source) (start stop : Nat) : Location :=
  ⟨source.position start, source.position stop⟩

def slice (source : Source) (start stop : Nat) : List Char :=
  Text.slice source.chars start stop

end Source

@[simp] theorem newlinesFrom_nil (offset : Nat) : newlinesFrom offset [] = [] := rfl

theorem newlinesFrom_append (offset : Nat) (cs ds : List Char) :
    newlinesFrom offset (cs ++ ds) =
      newlinesFrom offset cs ++ newlinesFrom (offset + Text.byteLength cs) ds := by
  induction cs generalizing offset with
  | nil => simp
  | cons c cs ih => simp [newlinesFrom, ih, Nat.add_assoc]

theorem bounds_of_mem_newlinesFrom {offset i : Nat} {cs : List Char}
    (h : i ∈ newlinesFrom offset cs) : offset ≤ i ∧ i < offset + Text.byteLength cs := by
  induction cs generalizing offset with
  | nil => cases h
  | cons c cs ih =>
    have hpos := c.utf8Size_pos
    rw [newlinesFrom, List.mem_append] at h
    rw [Text.byteLength_cons]
    rcases h with h | h
    · split at h
      · obtain rfl := List.mem_singleton.1 h
        omega
      · cases h
    · have := ih h
      omega

theorem pairwise_newlinesFrom (offset : Nat) (cs : List Char) :
    (newlinesFrom offset cs).Pairwise (· < ·) := by
  induction cs generalizing offset with
  | nil => exact .nil
  | cons c cs ih =>
    have hpos := c.utf8Size_pos
    refine List.pairwise_append.2 ⟨?_, ih _, ?_⟩
    · split
      · exact List.pairwise_singleton _ _
      · exact .nil
    · intro i hi j hj
      have hbound := (bounds_of_mem_newlinesFrom hj).1
      split at hi
      · obtain rfl := List.mem_singleton.1 hi
        omega
      · cases hi

theorem Source.position_ofChars (cs : List Char) (offset : Nat) :
    (ofChars cs).position offset =
      { offset := word offset
        line := word (((newlinesFrom 0 cs).takeWhile (· < offset)).length + 1)
        column := word (((newlinesFrom 0 cs).takeWhile (· < offset)).getLast?.elim (offset + 1)
          (offset - ·)) } := by
  have hindex := Ascending.index_search offset (pairwise_newlinesFrom 0 cs)
  have hprefix := List.takeWhile_prefix (l := newlinesFrom 0 cs) (fun i => decide (i < offset))
  simp only [position, ofChars, hindex]
  generalize (newlinesFrom 0 cs).takeWhile (· < offset) = before at hprefix
  cases hlast : before.getLast? with
  | none =>
    obtain rfl := List.getLast?_eq_none_iff.1 hlast
    rfl
  | some i =>
    obtain ⟨front, rfl⟩ := List.getLast?_eq_some_iff.1 hlast
    obtain ⟨behind, hbehind⟩ := hprefix
    have hi : (newlinesFrom 0 cs).getD front.length 0 = i := by
      rw [← hbehind]
      simp
    have hline : (front ++ [i]).length + 1 = front.length + 2 := by simp
    rw [hline, if_neg (by omega), Nat.add_sub_cancel, hi]
    rfl

end Templating
