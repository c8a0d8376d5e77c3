import Deduction.Document
import Deduction.Formula

/-!
# Formulas as documents

An atom is written as a string, a node as an object with one field: its tag, and
the array of its children.  On reading an integer is taken for the atom of its
decimal text.

A document that is no formula is rejected for the first offence that is met
from left to right: a tag is judged before the children under it, and those
before a second field.
-/

namespace Deduction

/-- Why a document is not a formula. -/
inductive FormulaFault where
  | null
  | bareSequence
  | emptyMapping
  | unknownTag (tag : String)
  | surplusKey (op : Operator)
  | notElement (found : Document)
  | notSequence (found : Document)
  deriving Repr

namespace FormulaFault

/-- The complaint in words. -/
def message : FormulaFault → String
  | null => "null is not a formula element"
  | bareSequence => "a bare sequence is not a formula element; wrap it in an operator"
  | emptyMapping => "operator mapping must not be empty"
  | unknownTag tag => Operator.unknownTagMessage tag
  | surplusKey op => "operator mapping for " ++ op.tag ++ " must have exactly one key"
  | notElement found =>
    "invalid type: " ++ found.describe ++
      ", expected an atom name or a single-key mapping from an operator to its list of children"
  | notSequence found => "invalid type: " ++ found.describe ++ ", expected a sequence"

end FormulaFault

namespace Formula

mutual

/-- Reads a formula. -/
def ofDocument : Document → Except FormulaFault Formula
  | .null => .error .null
  | .bool value => .error (.notElement (.bool value))
  | .integer n =>
    if Document.fits n then .ok (.atom n.repr) else .error (.notElement (.integer n))
  | .decimal text => .error (.notElement (.decimal text))
  | .string text => .ok (.atom text)
  | .array _ => .error .bareSequence
  | .object [] => .error .emptyMapping
  | .object ((tag, body) :: rest) =>
    match Operator.ofTag? tag with
    | none => .error (.unknownTag tag)
    | some op =>
      match childrenOfDocument body with
      | .error fault => .error fault
      | .ok children =>
        if rest.isEmpty then .ok (.node op children) else .error (.surplusKey op)

/-- Reads the children of a node. -/
def childrenOfDocument : Document → Except FormulaFault (List Formula)
  | .array items => ofDocuments items
  | found => .error (.notSequence found)

/-- Reads a list of formulas, from left to right. -/
def ofDocuments : List Document → Except FormulaFault (List Formula)
  | [] => .ok []
  | d :: ds =>
    match ofDocument d with
    | .error fault => .error fault
    | .ok f =>
      match ofDocuments ds with
      | .error fault => .error fault
      | .ok fs => .ok (f :: fs)

end

mutual

/-- Writes a formula. -/
def toDocument : Formula → Document
  | .atom name => .string name
  | .node op children => .object [(op.tag, .array (toDocuments children))]

/-- Writes a list of formulas. -/
def toDocuments : List Formula → List Document
  | [] => []
  | f :: fs => toDocument f :: toDocuments fs

end

/-- Formulas of a list are written one by one. -/
theorem toDocuments_eq_map (fs : List Formula) : toDocuments fs = fs.map toDocument := by
  induction fs with
  | nil => rfl
  | cons f fs ih => simp [toDocuments, ih]

end Formula

namespace Document

/-- The formula as a document, or null if there is none. -/
def ofFormula? (f : Option Formula) : Document :=
  (f.map Formula.toDocument).getD null

end Document

end Deduction
