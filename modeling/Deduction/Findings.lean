import Deduction.Diagnostic
import Deduction.Rule

/-!
# Findings

What a check leaves behind: the diagnostics in the order in which they were
found, and a log of everything that happened.  Findings are joined by `++`.

Reporting a diagnostic puts it on both lists; the log also has events that are
no diagnostics.
-/

namespace Deduction

/-- What happens during a check. -/
inductive Event where
  /-- The check of a proof with so many lines begins. -/
  | checking (place : Location) (lines : Nat)
  /-- A diagnostic is recorded. -/
  | reported (diagnostic : Diagnostic)
  /-- The reason of a line has been judged. -/
  | judged (place : Location) (rule : Rule) (passed : Bool)
  /-- A conditional proof begins. -/
  | entered (place : Location) (depth : Nat)
  /-- A conditional proof ends, with so many diagnostics from its lines. -/
  | left (place : Location) (count : Nat)
  /-- The check of a proof ends, with so many diagnostics in all. -/
  | finished (place : Location) (count : Nat)
  deriving DecidableEq, Repr

/-- How much an event matters to a reader of the log. -/
inductive Level where
  | debug
  | trace
  deriving DecidableEq, Repr

namespace Level

/-- The word for a level. -/
def text : Level → String
  | debug => "DEBUG"
  | trace => "TRACE"

end Level

namespace Event

/-- Beginning and end of a whole check stand out. -/
def level : Event → Level
  | checking .. | finished .. => .debug
  | _ => .trace

/-- The event in words. -/
def message : Event → String
  | checking place lines =>
    "checking proof at " ++ place.text ++ " (" ++ lines.repr ++ " lines)"
  | reported diagnostic => diagnostic.render
  | judged place rule passed =>
    place.text ++ " by " ++ rule.name ++ ": " ++ (if passed then "ok" else "failed")
  | entered place depth =>
    "entering conditional proof at " ++ place.text ++ " (depth " ++ depth.repr ++ ")"
  | left place count =>
    "leaving conditional proof at " ++ place.text ++ ": " ++ count.repr ++ " inner error(s)"
  | finished place count =>
    "finished proof at " ++ place.text ++ ": " ++ count.repr ++ " error(s)"

/-- The event as a line of the log. -/
def text (event : Event) : String :=
  event.level.text ++ " " ++ event.message

end Event

/-- Diagnostics and log of a check. -/
structure Findings where
  errors : List Diagnostic := []
  log : List Event := []
  deriving DecidableEq, Repr, Inhabited

namespace Findings

instance : Append Findings where
  append a b := ⟨a.errors ++ b.errors, a.log ++ b.log⟩

/-- A diagnostic, recorded and logged. -/
def report (d : Diagnostic) : Findings :=
  ⟨[d], [.reported d]⟩

/-- An event that is only logged. -/
def note (event : Event) : Findings :=
  ⟨[], [event]⟩

@[simp] theorem errors_append (a b : Findings) : (a ++ b).errors = a.errors ++ b.errors := rfl

@[simp] theorem log_append (a b : Findings) : (a ++ b).log = a.log ++ b.log := rfl

@[simp] theorem errors_report (d : Diagnostic) : (report d).errors = [d] := rfl

@[simp] theorem log_report (d : Diagnostic) : (report d).log = [.reported d] := rfl

@[simp] theorem errors_note (event : Event) : (note event).errors = [] := rfl

@[simp] theorem log_note (event : Event) : (note event).log = [event] := rfl

/-- Finding nothing first adds nothing. -/
@[simp] theorem empty_append (a : Findings) : ({} : Findings) ++ a = a := rfl

/-- Finding nothing afterwards adds nothing. -/
@[simp] theorem append_empty (a : Findings) : a ++ ({} : Findings) = a := by
  show Findings.mk (a.errors ++ []) (a.log ++ []) = a
  rw [List.append_nil, List.append_nil]

/-- Findings may be put together in any grouping. -/
theorem append_assoc (a b c : Findings) : a ++ b ++ c = a ++ (b ++ c) := by
  show Findings.mk (a.errors ++ b.errors ++ c.errors) (a.log ++ b.log ++ c.log) =
    Findings.mk (a.errors ++ (b.errors ++ c.errors)) (a.log ++ (b.log ++ c.log))
  rw [List.append_assoc, List.append_assoc]

end Findings

/-- What was found at a line, and whether the line passed. -/
structure Verdict where
  found : Findings
  passed : Bool
  deriving DecidableEq, Repr, Inhabited

namespace Verdict

/-- The verdict of a check that stops at its first defect. -/
def ofCheck : Except Diagnostic Unit → Verdict
  | .ok () => ⟨{}, true⟩
  | .error d => ⟨.report d, false⟩

end Verdict

end Deduction
