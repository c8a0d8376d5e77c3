import Deduction.Document.Reading
import Deduction.Rule

/-!
# Rule books as documents

A rule book is an object from rule names to versions.
-/

namespace Deduction

namespace RuleBook

/-- Reads a rule book. -/
def ofDocument (d : Document) : Except ReadError RuleBook := do
  let declarations ← (← d.asFields).mapM fun (name, version) => do
    return (name, ← version.asVersion)
  return ofList declarations

end RuleBook

end Deduction
